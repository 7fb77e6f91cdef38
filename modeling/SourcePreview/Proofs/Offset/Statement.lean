import SourcePreview.Proofs.Offset.Form
import SourcePreview.Proofs.Statement.Expressions
import SourcePreview.Proofs.Statement.Formed

/-! The statements of a source text by byte offsets. Lines are cut at comments, words, parentheses
and equals signs, and reading them never breaks off (`scan_eq`). -/

namespace SourcePreview.Offset

open Text (byteSize)

section

variable (d : Dialect)

/-- The offset of the first line comment outside of quotes. -/
def comment? (n : Nesting) (offset : Nat) : Text → Option Nat
  | [] => none
  | c :: r =>
    if n.quote.isNone && d.startsComment c r then some offset
    else comment? (n.step c) (offset + c.utf8Size) r

def code (s : Text) : Except Panic Text :=
  match comment? d .start 0 s with
  | some offset => upTo s offset
  | none => .ok s

theorem comment?_eq (n : Nesting) (offset : Nat) (s : Text) :
    comment? d n offset s = (d.cutComment n s).2.map fun _ =>
    offset + byteSize (d.cutComment n s).1 := by
  induction s generalizing n offset with
  | nil => rfl
  | cons c r ih =>
    rw [comment?, Dialect.cutComment]
    split
    · rfl
    · rw [ih]
      simp only [Text.byteSize_cons, Nat.add_assoc]

theorem code_eq (s : Text) : code d s = .ok (d.code s) := by
  rw [code, comment?_eq, Dialect.code]
  obtain ⟨rest, hr⟩ := d.code_isPrefix s
  rw [Dialect.code] at hr
  cases h : (d.cutComment .start s).2 with
  | none => exact congrArg Except.ok (Dialect.cutComment_fst h).symm
  | some comment =>
    have cut := upTo_append (d.cutComment .start s).1 rest
    rw [hr] at cut
    simpa using cut

end

/-- The identifier characters a text starts with, and the rest. -/
def leadingWord (s : Text) : Except Panic (Text × Text) := do
  let final := (find? (fun c => !Text.isNamePart c) s).getD (byteSize s)
  .ok (← upTo s final, ← behind s final)

theorem leadingWord_eq (s : Text) : leadingWord s = .ok (Text.leadingWord s) := by
  have final : (find? (fun c => !Text.isNamePart c) s).getD (byteSize s) =
      byteSize (s.takeWhile Text.isNamePart) := by
    induction s with
    | nil => rfl
    | cons c r ih =>
      rw [find?, List.takeWhile_cons]
      cases Text.isNamePart c with
      | false => rfl
      | true =>
        rw [if_neg (by simp), if_pos rfl, Text.byteSize_cons, Text.byteSize_cons, ← ih]
        cases find? (fun c => !Text.isNamePart c) r <;> rfl
  have whole : s.takeWhile Text.isNamePart ++ s.dropWhile Text.isNamePart = s :=
    List.takeWhile_append_dropWhile
  have word := upTo_append (s.takeWhile Text.isNamePart) (s.dropWhile Text.isNamePart)
  have rest := behind_append (s.takeWhile Text.isNamePart) (s.dropWhile Text.isNamePart)
  rw [whole] at word rest
  simp only [leadingWord, final, word, rest]
  rfl

/-- A whole text as one call; blanks may stand around the parentheses. -/
def coveringCall? (s : Text) : Except Panic (Option Call) :=
  match find? (· == '(') s with
  | none => .ok none
  | some opening => do
    let function := Text.trimEnd (← upTo s opening)
    if Call.isPath function then
      .ok ((← enclosed? (Text.trim (← behind s opening))).map fun inner => ⟨function, inner⟩)
    else .ok none

theorem coveringCall?_eq (s : Text) : coveringCall? s = .ok (Call.ofText? s) := by
  rw [coveringCall?, find?_eq, Call.ofText?]
  cases h : Text.cutAtFirst (· == '(') s with
  | none => rfl
  | some parts =>
    obtain ⟨function, c, r⟩ := parts
    obtain ⟨rfl, hc, -⟩ := Text.eq_of_cutAtFirst h
    obtain rfl := eq_of_beq hc
    simp only [Option.map_some, Option.bind_some, bind, Except.bind, upTo_append, behind_append,
      enclosed?_eq]
    split <;> rfl

namespace Python

def input? (target : Option Text) (expr : Text) : Except Panic (Option InputSite) := do
  match ← coveringCall? (Text.trim expr) with
  | none => .ok none
  | some call =>
    if call.function = "input".toList then
      .ok (some (SourcePreview.Python.site target .str call.inner))
    else
      match SourcePreview.Python.conversionKind? call.function with
      | none => .ok none
      | some kind =>
        match ← coveringCall? (Text.trim call.inner) with
        | none => .ok none
        | some inner =>
          .ok (if inner.function = "input".toList then some
            (SourcePreview.Python.site target kind inner.inner) else none)

theorem input?_eq (target : Option Text) (expr : Text) :
    input? target expr = .ok (SourcePreview.Python.input? target expr) := by
  rw [input?, coveringCall?_eq, SourcePreview.Python.input?]
  cases Call.ofText? (Text.trim expr) with
  | none => rfl
  | some call =>
    simp only [bind, Except.bind, Option.bind_some]
    split
    · rfl
    · cases SourcePreview.Python.conversionKind? call.function with
      | none => rfl
      | some kind =>
        simp only [coveringCall?_eq, Option.bind_some]
        cases Call.ofText? (Text.trim call.inner) <;> rfl

def assigned? (s : Text) : Except Panic (Option Statement) := do
  match ← assignment? s with
  | none => .ok none
  | some parts =>
    let target := Text.trim ((Text.splitAll ':' parts.left).headD [])
    if !Text.isIdentifier target then .ok (some (.other s))
    else
      match ← if parts.op.isNone then input? (some target) parts.right else .ok none with
      | some site => .ok (some (.action (.input site)))
      | none => .ok (some (.assign target parts.op parts.right))

theorem assigned?_eq (s : Text) : assigned? s = .ok (SourcePreview.Python.assignment? s) := by
  rw [assigned?, assignment?_eq, SourcePreview.Python.assignment?]
  cases AssignmentParts.ofText? s with
  | none => rfl
  | some parts =>
    simp only [bind, Except.bind, Option.map_some, input?_eq]
    split
    · rfl
    · cases parts.op.isNone with
      | false => rfl
      | true =>
        rw [if_pos rfl, if_pos rfl]
        cases SourcePreview.Python.input?
          (some (Text.trim ((Text.splitAll ':' parts.left).headD []))) parts.right <;> rfl

/-- The statement of a text that is no header and no print call. -/
def simple (s : Text) : Except Panic Statement := do
  match ← input? none s with
  | some site => .ok (.action (.input site))
  | none => .ok ((← assigned? s).getD (.other s))

theorem simple_eq (s : Text) : simple s = .ok (SourcePreview.Python.simple s) := by
  rw [simple, input?_eq, SourcePreview.Python.simple]
  simp only [bind, Except.bind, assigned?_eq]
  cases SourcePreview.Python.input? none s <;> rfl

def print? (word rest : Text) : Except Panic (Option Print) := do
  if word = "print".toList then
    match ← enclosed? (Text.trim rest) with
    | none => .ok none
    | some inner =>
      do .ok (some ((← splitTop ',' inner).foldl SourcePreview.Python.addArgument ⟨[], none,
        .newline, .stdout⟩))
  else .ok none

theorem print?_eq (word rest : Text) :
    print? word rest = .ok (SourcePreview.Python.print? word rest) := by
  unfold print? SourcePreview.Python.print?
  split
  · rw [enclosed?_eq]
    cases Nesting.enclosed? (Text.trim rest) with
    | none => rfl
    | some inner =>
      simp only [bind, Except.bind, splitTop_eq]
      rfl
  · rfl

def header (keyword rest : Text) : Except Panic LineShape :=
  match topOffset? ':' rest with
  | some colon => do
    let body := Text.trim (← behind rest (colon + 1))
    .ok (if body.isEmpty then .complete (.header keyword) else .header keyword body)
  | none => .ok (.complete (.header keyword))

theorem header_eq (keyword rest : Text) :
    header keyword rest = .ok (SourcePreview.Python.header keyword rest) := by
  rw [header, topOffset?_eq, SourcePreview.Python.header]
  cases h : Nesting.splitTopOnce ':' .start rest with
  | none => rfl
  | some parts =>
    obtain ⟨front, body⟩ := parts
    obtain rfl := Nesting.eq_of_splitTopOnce h
    have past := behind_cons (c := ':') rfl front body
    simp only [Option.map_some, past]
    rfl

def shape (line : Text) : Except Panic LineShape := do
  let s := Text.trim (← code .python line)
  if s.isEmpty then .ok (.complete (.withoutCode line))
  else if SourcePreview.Python.isDocstring s then .ok (.complete .comment)
  else
    let (word, rest) ← leadingWord s
    if Dialect.python.isStructural word && !SourcePreview.Python.startsAssignment rest then
      header word rest
    else
      match ← print? word rest with
      | some p => .ok (.complete (.action (.print p)))
      | none => do .ok (.complete (← simple s))

theorem shape_eq (line : Text) : shape line = .ok (SourcePreview.Python.shape line) := by
  rw [shape, code_eq, SourcePreview.Python.shape]
  simp only [bind, Except.bind, leadingWord_eq, header_eq, print?_eq, simple_eq]
  split
  · rfl
  · split
    · rfl
    · split
      · rfl
      · cases SourcePreview.Python.print?
          (Text.leadingWord (Text.trim (Dialect.python.code line))).1
          (Text.leadingWord (Text.trim (Dialect.python.code line))).2 <;> rfl

end Python

namespace Java

def dropModifiers (s : Text) : Except Panic Text := do
  let (word, rest) ← leadingWord s
  if SourcePreview.Java.modifiers.contains word then
    (if rest.length < s.length then dropModifiers (Text.trimStart rest) else .ok s)
  else .ok s
termination_by s.length
decreasing_by
  have := Text.length_trimStart_le rest
  omega

theorem dropModifiers_eq (s : Text) :
    dropModifiers s = .ok (SourcePreview.Java.dropModifiers s) := by
  induction hl : s.length using Nat.strongRecOn generalizing s with
  | ind l ih =>
    rw [dropModifiers, leadingWord_eq, SourcePreview.Java.dropModifiers]
    simp only [bind, Except.bind]
    split
    · split
      · next shorter =>
        have := Text.length_trimStart_le (Text.leadingWord s).2
        exact ih _ (by omega) _ rfl
      · rfl
    · rfl

/-- What stands behind the condition of a header, or behind its word if it has none. -/
def inline? (keyword rest : Text) : Except Panic (Option Text) :=
  if ["if", "while", "for"].any (fun w => w.toList == keyword) then
    if Text.startsWith ['('] rest then do
      match ← matchingClose? rest 0 with
      | some close => do .ok (some (← behind rest (close + 1)))
      | none => .ok none
    else .ok none
  else .ok (if ["else", "do"].any (fun w => w.toList == keyword) then some rest else none)

theorem inline?_eq (keyword rest : Text) :
    inline? keyword rest = .ok (SourcePreview.Java.inline? keyword rest) := by
  unfold inline? SourcePreview.Java.inline?
  split
  · split
    · next starts =>
      obtain ⟨r, hr⟩ := Option.isSome_iff_exists.1 starts
      obtain rfl := Text.after?_eq_some_iff.1 hr
      have close := matchingClose?_eq [] r
      rw [Text.byteSize_nil, List.nil_append] at close
      change (do
        match ← matchingClose? ('(' :: r) 0 with
        | some close => do .ok (some (← behind ('(' :: r) (close + 1)))
        | none => .ok none) = Except.ok ((Nesting.closing? .inside r).map (·.2))
      rw [close]
      cases hc : Nesting.closing? .inside r with
      | none => rfl
      | some parts =>
        obtain ⟨a, b⟩ := parts
        obtain ⟨c, hclosing, rfl⟩ := Nesting.eq_of_closing? hc
        have past := behind_cons (utf8Size_of_isClosing hclosing) ('(' :: a) b
        rw [Text.byteSize_cons, List.cons_append] at past
        have paren : '('.utf8Size = 1 := rfl
        rw [paren] at past
        simp only [bind, Except.bind, Option.map_some, Nat.zero_add, past]
    · next starts =>
      split
      · exact absurd rfl starts
      · rfl
  · split <;> rfl

def header (keyword rest : Text) : Except Panic LineShape := do
  match ← inline? keyword (Text.trim rest) with
  | some body =>
    let body := Text.trim (Text.trimEndOf (· == '{') (Text.trim body))
    .ok (if body.isEmpty then .complete (.header keyword) else .header keyword body)
  | none => .ok (.complete (.header keyword))

theorem header_eq (keyword rest : Text) :
    header keyword rest = .ok (SourcePreview.Java.header keyword rest) := by
  rw [header, inline?_eq, SourcePreview.Java.header]
  cases SourcePreview.Java.inline? keyword (Text.trim rest) <;> rfl

def print? (s : Text) : Except Panic (Option Print) :=
  match SourcePreview.Java.printCall? s with
  | none => .ok none
  | some (stream, call) => do
    match ← coveringCall? call with
    | none => .ok none
    | some call =>
      .ok ((SourcePreview.Java.ending? call.function).map fun ending =>
        ⟨if (Text.trim call.inner).isEmpty then [] else [Text.trim call.inner], none, ending,
          stream⟩)

theorem print?_eq (s : Text) : print? s = .ok (SourcePreview.Java.print? s) := by
  rw [print?, SourcePreview.Java.print?_eq]
  cases SourcePreview.Java.printCall? s with
  | none => rfl
  | some p =>
    dsimp only
    rw [coveringCall?_eq]
    cases h : Call.ofText? p.2 <;> simp [h, bind, Except.bind]

def read? (expr : Text) : Except Panic (Option Kind) := do
  match ← coveringCall? (Text.trim expr) with
  | none => .ok none
  | some call =>
    .ok (if Text.isBlankText call.inner then
      (Text.splitOnceLast '.' call.function).bind fun (_, method) =>
      SourcePreview.Java.methodKind? method
    else none)

theorem read?_eq (expr : Text) : read? expr = .ok (SourcePreview.Java.read? expr) := by
  rw [read?, coveringCall?_eq, SourcePreview.Java.read?]
  cases Call.ofText? (Text.trim expr) with
  | none => rfl
  | some call =>
    simp only [bind, Except.bind, Option.bind]

def assigned? (s : Text) : Except Panic (Option Statement) := do
  match ← assignment? s with
  | none => .ok none
  | some parts =>
    match SourcePreview.Java.declared? parts.left with
    | none => .ok (some (.other s))
    | some target =>
      if parts.op.isSome then .ok (some (.assign target parts.op parts.right))
      else
        match ← read? parts.right with
        | some kind => .ok (some (.action (.input ⟨some target, kind, none⟩)))
        | none =>
          .ok (some (if Text.startsWith "new ".toList (Text.trimStart parts.right) then .other s
            else .assign target none parts.right))

theorem assigned?_eq (s : Text) : assigned? s = .ok (SourcePreview.Java.assignment? s) := by
  rw [assigned?, assignment?_eq, SourcePreview.Java.assignment?]
  cases AssignmentParts.ofText? s with
  | none => rfl
  | some parts =>
    simp only [bind, Except.bind, Option.map_some, read?_eq]
    cases SourcePreview.Java.declared? parts.left with
    | none => rfl
    | some target =>
      dsimp only
      split
      · rfl
      · cases SourcePreview.Java.read? parts.right with
        | some kind => rfl
        | none => rfl

def simple (s : Text) : Except Panic Statement := do
  match ← print? s with
  | some p => .ok (.action (.print p))
  | none =>
    match ← assigned? s with
    | some statement => .ok statement
    | none => .ok ((SourcePreview.Java.increment? s).getD (.other s))

theorem simple_eq (s : Text) : simple s = .ok (SourcePreview.Java.simple s) := by
  rw [simple, print?_eq, SourcePreview.Java.simple]
  simp only [bind, Except.bind, assigned?_eq]
  cases SourcePreview.Java.print? s with
  | some p => rfl
  | none => cases SourcePreview.Java.assignment? s <;> rfl

def shape (line : Text) : Except Panic LineShape := do
  let code := Text.trim (← code .java line)
  if code.isEmpty then .ok (.complete (.withoutCode line))
  else if Text.startsWith "/*".toList code || Text.startsWith ['*'] code then
    .ok (.complete .comment)
  else if code.all fun c => c == '{' || c == '}' || c == ';' then .ok (.complete .blank)
  else
    let s := SourcePreview.Java.bare code
    let (word, rest) ← leadingWord (← dropModifiers s)
    if Dialect.java.isStructural word then header word rest
    else if Text.endsWith ['{'] s then .ok (.complete (.header word))
    else do .ok (.complete (← simple s))

theorem shape_eq (line : Text) : shape line = .ok (SourcePreview.Java.shape line) := by
  rw [shape, code_eq, SourcePreview.Java.shape]
  simp only [bind, Except.bind, dropModifiers_eq, leadingWord_eq, header_eq, simple_eq]
  split
  · rfl
  · split
    · rfl
    · split
      · rfl
      · split
        · rfl
        · split <;> rfl

end Java

def shape : Dialect → Text → Except Panic LineShape
  | .python => Python.shape
  | .java => Java.shape

def statement (d : Dialect) (line : Text) : Except Panic Statement := do
  match ← shape d line with
  | .complete s => .ok s
  | .header keyword body =>
    .ok (.headed keyword (← if body.length < line.length then statement d body else .ok .blank))
termination_by line.length

theorem statement_eq (d : Dialect) (line : Text) : statement d line = .ok (d.statement line) := by
  induction hl : line.length using Nat.strongRecOn generalizing line with
  | ind l ih =>
    have body : ∀ keyword body, body.length < line.length →
        (do .ok (.headed keyword
          (← if body.length < line.length then statement d body else .ok .blank)) :
          Except Panic Statement) =
          .ok (.headed keyword (d.statement body)) := by
      intro keyword body shorter
      rw [if_pos shorter, ih body.length (hl ▸ shorter) body rfl]
      rfl
    rw [statement]
    cases d with
    | python =>
      rw [shape, Python.shape_eq, Dialect.statement, SourcePreview.Python.statement_eq]
      cases hs : SourcePreview.Python.shape line with
      | complete s => rfl
      | header keyword b => exact body keyword b (SourcePreview.Python.length_body_lt hs)
    | java =>
      rw [shape, Java.shape_eq, Dialect.statement, SourcePreview.Java.statement_eq]
      cases hs : SourcePreview.Java.shape line with
      | complete s => rfl
      | header keyword b => exact body keyword b (SourcePreview.Java.length_body_lt hs)

def step (d : Dialect) (awaited : Option Text) (line : Text) :
    Except Panic (Statement × Option Text) :=
  match awaited with
  | some closing => .ok (.comment, if Text.containsText closing line then none else some closing)
  | none =>
    match d.opensBlock? line with
    | some closing => .ok (.comment, some closing)
    | none => do .ok (← statement d line, none)

theorem step_eq (d : Dialect) (awaited : Option Text) (line : Text) :
    step d awaited line = .ok (d.step awaited line) := by
  unfold step Dialect.step
  cases awaited with
  | some closing => rfl
  | none =>
    cases d.opensBlock? line with
    | some closing => rfl
    | none =>
      dsimp only
      rw [statement_eq]
      rfl

def statements (d : Dialect) (awaited : Option Text) : List Text → Except Panic (List Statement)
  | [] => .ok []
  | line :: rest => do
    let (s, awaited) ← step d awaited (Text.trim line)
    .ok (s :: (← statements d awaited rest))

theorem statements_eq (d : Dialect) (awaited : Option Text) (lines : List Text) :
    statements d awaited lines = .ok (d.statements awaited lines) := by
  induction lines generalizing awaited with
  | nil => rfl
  | cons line rest ih =>
    rw [statements, step_eq, Dialect.statements]
    simp only [bind, Except.bind, ih]

def scan (d : Dialect) (source : Text) : Except Panic (List Line) := do
  .ok (Line.numberFrom 1 (← statements d none (Text.lines source)))

/-- Reading a source text never breaks off. -/
theorem scan_eq (d : Dialect) (source : Text) : scan d source = .ok (Line.scan d source) := by
  rw [scan, statements_eq]
  rfl

end SourcePreview.Offset
