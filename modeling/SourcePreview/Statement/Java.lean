import SourcePreview.Statement.Python

/-! The statements of a Java line. Closing braces and one final semicolon do not count; modifiers
are looked past. A line that opens a brace is a header, even without a word of control flow. -/

namespace SourcePreview.Java

/-- The words that may stand before a declaration. -/
def modifiers : List Text :=
  ["public", "private", "protected", "static", "final", "abstract",
    "synchronized"].map String.toList

def dropModifiers (s : Text) : Text :=
  let (word, rest) := Text.leadingWord s
  if modifiers.contains word then
    (if rest.length < s.length then dropModifiers (Text.trimStart rest) else s) else s
termination_by s.length
decreasing_by
  have := Text.length_trimStart_le rest
  omega

/-- The code of a line without the braces it closes and without a final semicolon. -/
def bare (code : Text) : Text :=
  let s := code.dropWhile fun c => c == '}' || Text.isBlank c
  Text.trimEnd ((Text.before? [';'] s).getD s)

/-- What stands behind the condition of a header, or behind its word if it has none. -/
def inline? (keyword rest : Text) : Option Text :=
  if ["if", "while", "for"].any (fun w => w.toList == keyword) then
    match rest with
    | '(' :: r => (Nesting.closing? .inside r).map (·.2)
    | _ => none
  else if ["else", "do"].any (fun w => w.toList == keyword) then some rest
  else none

def header (keyword rest : Text) : LineShape :=
  match inline? keyword (Text.trim rest) with
  | some body =>
    let body := Text.trim (Text.trimEndOf (· == '{') (Text.trim body))
    if body.isEmpty then .complete (.header keyword) else .header keyword body
  | none => .complete (.header keyword)

def printCall? (s : Text) : Option (Stream × Text) :=
  match Text.after? "System.out.".toList s with
  | some call => some (.stdout, call)
  | none => (Text.after? "System.err.".toList s).map fun call => (.stderr, call)

def print? (s : Text) : Option Print := do
  let (stream, call) ← printCall? s
  let call ← Call.ofText? call
  let ending ← if call.function = "println".toList then some PrintEnd.newline
    else if call.function = "print".toList then some PrintEnd.nothing else none
  let inner := Text.trim call.inner
  return ⟨if inner.isEmpty then [] else [inner], none, ending, stream⟩

def methodKind? (method : Text) : Option Kind :=
  match String.ofList method with
  | "nextInt" => some .int
  | "nextLong" => some .int
  | "nextShort" => some .int
  | "nextByte" => some .int
  | "nextDouble" => some .float
  | "nextFloat" => some .float
  | "nextLine" => some .str
  | "next" => some .str
  | _ => none

def read? (expr : Text) : Option Kind := do
  let call ← Call.ofText? (Text.trim expr)
  if Text.isBlankText call.inner then methodKind? (← Text.splitOnceLast '.' call.function).2
  else none

/-- The variable of an assignment's left side: its last word, behind any type; elements and fields
have none. -/
def declared? (left : Text) : Option Text :=
  let left := Text.trim left
  if left.any fun c => c == '[' || c == '.' then none
  else (Text.words left).getLast?.filter Text.isIdentifier

def assignment? (s : Text) : Option Statement :=
  (AssignmentParts.ofText? s).map fun parts =>
    match declared? parts.left with
    | none => .other s
    | some target =>
      if parts.op.isSome then .assign target parts.op parts.right
      else
        match read? parts.right with
        | some kind => .action (.input ⟨some target, kind, none⟩)
        | none =>
          if Text.startsWith "new ".toList (Text.trimStart parts.right) then .other s
          else .assign target none parts.right

def doubled? (sign : Text) (s : Text) : Option Text := (Text.before? sign s).or (Text.after? sign s)

def increment? (s : Text) : Option Statement := do
  let (name, op) ← ((doubled? "++".toList s).map fun name => (name, Operator.add)).or
    ((doubled? "--".toList s).map fun name => (name, Operator.sub))
  let name := Text.trim name
  if Text.isIdentifier name then return .assign name (some op) ['1'] else none

def simple (s : Text) : Statement :=
  match print? s with
  | some p => .action (.print p)
  | none =>
    match assignment? s with
    | some statement => statement
    | none => (increment? s).getD (.other s)

def shape (line : Text) : LineShape :=
  let code := Text.trim (Dialect.java.code line)
  if code.isEmpty then .complete (.withoutCode line)
  else if Text.startsWith "/*".toList code || Text.startsWith ['*'] code then .complete .comment
  else if code.all fun c => c == '{' || c == '}' || c == ';' then .complete .blank
  else
    let s := bare code
    let (word, rest) := Text.leadingWord (dropModifiers s)
    if Dialect.java.isStructural word then header word rest
    else if Text.endsWith ['{'] s then .complete (.header word)
    else .complete (simple s)

theorem length_dropModifiers_le (s : Text) : (dropModifiers s).length ≤ s.length := by
  fun_induction dropModifiers s with
  | case1 s word rest hw hm hl ih => have := Text.length_trimStart_le rest; omega
  | case2 => exact Nat.le_refl _
  | case3 => exact Nat.le_refl _

theorem length_bare_le (code : Text) : (bare code).length ≤ code.length := by
  have h1 := (List.dropWhile_sublist (fun c => c == '}' || Text.isBlank c) (l := code)).length_le
  simp only [bare]
  generalize code.dropWhile (fun c => c == '}' || Text.isBlank c) = s at *
  cases h : Text.before? [';'] s with
  | none => have := Text.length_trimEnd_le s; simp only [Option.getD_none]; omega
  | some t =>
    have h2 := congrArg List.length (Text.before?_eq_some_iff.1 h)
    have := Text.length_trimEnd_le t
    simp only [List.length_append, List.length_cons, List.length_nil, Option.getD_some] at h2 ⊢
    omega

theorem length_inline?_le {keyword rest body : Text} (h : inline? keyword rest = some body) :
    body.length ≤ rest.length := by
  unfold inline? at h
  split at h
  · split at h
    · obtain ⟨⟨a, b⟩, hc, rfl⟩ := Option.map_eq_some_iff.1 h
      obtain ⟨c, -, rfl⟩ := Nesting.eq_of_closing? hc
      simp only [List.length_cons, List.length_append]
      omega
    · cases h
  · split at h
    · cases h; exact Nat.le_refl _
    · cases h

theorem structural_ne_nil {word : Text} (h : Dialect.java.isStructural word = true) :
    0 < word.length := by
  cases word with
  | nil => exact absurd h (by decide)
  | cons c r => simp

theorem length_body_lt {line keyword body : Text} (h : shape line = .header keyword body) :
    body.length < line.length := by
  simp only [shape] at h
  split at h
  · cases h
  split at h
  · cases h
  split at h
  · cases h
  split at h
  · next hk =>
    unfold header at h
    split at h
    · next b hb =>
      simp only at h
      split at h
      · cases h
      · simp only [LineShape.header.injEq] at h
        obtain ⟨-, rfl⟩ := h
        generalize hs : bare (Text.trim (Dialect.java.code line)) = s at *
        have h1 := length_inline?_le hb
        have h2 := Text.length_trim_le b
        have h3 := Text.length_trimEndOf_le (· == '{') (Text.trim b)
        have h4 := Text.length_trim_le (Text.trimEndOf (· == '{') (Text.trim b))
        have h5 := congrArg List.length (Text.spanOf_append Text.isNamePart (dropModifiers s))
        have h6 := length_dropModifiers_le s
        have h7 := length_bare_le (Text.trim (Dialect.java.code line))
        have h8 := Text.length_trim_le (Dialect.java.code line)
        have h9 := Dialect.java.length_code_le line
        have h10 := structural_ne_nil hk
        have h11 := Text.length_trim_le (Text.leadingWord (dropModifiers s)).2
        rw [hs] at h7
        simp only [Text.leadingWord, List.length_append] at h1 h5 h10 h11
        omega
    · cases h
  · split at h <;> cases h

def statement (line : Text) : Statement :=
  match shape line with
  | .complete s => s
  | .header keyword body =>
    .headed keyword (if body.length < line.length then statement body else .blank)
termination_by line.length

theorem statement_eq (line : Text) : statement line =
    match shape line with
    | .complete s => s
    | .header keyword body => .headed keyword (statement body) := by
  rw [statement]
  cases h : shape line with
  | complete s => rfl
  | header keyword body => simp [length_body_lt h]

end SourcePreview.Java
