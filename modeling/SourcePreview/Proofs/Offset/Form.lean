import SourcePreview.Proofs.Expression.Cover
import SourcePreview.Proofs.Offset.Cut

/-! The form of an expression by byte offsets. The delimiters of literals and calls are measured in
bytes; since a text that starts and ends in them holds them whole, that is no other measure than
their characters (`quoted?_eq`). -/

namespace SourcePreview.Offset

open Text (byteSize)

section

variable {q : Char} {s r mark body : Text}

def closes (delimiter body : Text) : Bool :=
  match delimiter with
  | [q] => Quoted.closes q body
  | _ => Quoted.closesTriple body

def delimited? (delimiter s : Text) : Except Panic (Option Text) :=
  if byteSize s < byteSize delimiter * 2 || !Text.endsWith delimiter s then .ok none
  else do
    let body ← between s (byteSize delimiter) (← sub (byteSize s) (byteSize delimiter))
    .ok (if closes delimiter body then some body else none)

def body? (quote s : Text) : Except Panic (Option Text) :=
  let triple := quote ++ quote ++ quote
  delimited? (if 6 ≤ byteSize s ∧ Text.startsWith triple s then triple else quote) s

def quoted? (s : Text) : Except Panic (Option Quoted) :=
  match find? Nesting.isQuote s with
  | none => .ok none
  | some opening => do
    let letters ← upTo s opening
    if 2 < byteSize letters || !letters.all Quoted.isPrefixLetter then .ok none
    else
      let rest ← behind s opening
      let quote ← upTo rest 1
      .ok ((← body? quote rest).map fun body =>
        ⟨body, letters.any fun c => c.toLower == 'f', letters.any fun c => c.toLower == 'r'⟩)

theorem delimited?_eq (narrow : ∀ c ∈ mark, c.utf8Size = 1) (starts : mark <+: s) :
    delimited? mark s = .ok ((Quoted.between? mark s).filter (closes mark)) := by
  obtain ⟨x, rfl⟩ := starts
  have inside : Quoted.between? mark (mark ++ x) = Text.before? mark x := by
    rw [Quoted.between?, Text.after?_eq_some_iff.2 rfl, Option.bind_some]
  rw [inside, delimited?]
  cases hx : Text.before? mark x with
  | some body =>
    obtain rfl := Text.before?_eq_some_iff.1 hx
    have ends : Text.endsWith mark (mark ++ (body ++ mark)) = true := by
      rw [Text.endsWith, Text.before?_eq_some_iff.2 (List.append_assoc mark body mark).symm]
      rfl
    have fits : ¬ byteSize (mark ++ (body ++ mark)) < byteSize mark * 2 := by
      rw [Text.byteSize_append, Text.byteSize_append]
      omega
    have last : sub (byteSize (mark ++ (body ++ mark))) (byteSize mark) =
        .ok (byteSize mark + byteSize body) := by
      rw [Text.byteSize_append, Text.byteSize_append, ← Nat.add_assoc, sub_add]
    simp only [ends, fits, decide_false, Bool.not_true, Bool.or_self, Bool.false_eq_true, if_false,
      last]
    simp only [bind, Except.bind, between_append, Option.filter_some]
  | none =>
    rw [Option.filter_none]
    refine if_pos ?_
    rw [Bool.or_eq_true, decide_eq_true_eq, Bool.not_eq_true']
    by_contra overlap
    simp only [not_or, Bool.not_eq_false, Nat.not_lt, Text.byteSize_append] at overlap
    obtain ⟨fits, ends⟩ := overlap
    obtain ⟨y, hy⟩ := Option.isSome_iff_exists.1 ends
    have suffix : mark <:+ mark ++ x := ⟨y, (Text.before?_eq_some_iff.1 hy).symm⟩
    -- one of the two ends of the text is an end of the other
    rcases Nat.le_total mark.length x.length with long | short
    · obtain ⟨body, hb⟩ := List.suffix_of_suffix_length_le suffix (List.suffix_append mark x) long
      rw [Text.before?_eq_some_iff.2 hb.symm] at hx
      cases hx
    · have inside := List.suffix_of_suffix_length_le (List.suffix_append mark x) suffix short
      have bytes := Text.byteSize_eq_length fun c hc => narrow c (inside.subset hc)
      rw [bytes, Text.byteSize_eq_length narrow] at fits
      have same : x = mark := inside.eq_of_length (by omega)
      rw [same, Text.before?_eq_some_iff.2 (List.nil_append mark).symm] at hx
      cases hx

theorem utf8Size_of_isQuote (hq : Nesting.isQuote q = true) : q.utf8Size = 1 := by
  simp only [Nesting.isQuote, Bool.or_eq_true, beq_iff_eq] at hq
  rcases hq with rfl | rfl <;> rfl

theorem filter_closes_eq_none (hq : Nesting.isQuote q = true) (r : Text) :
    (Quoted.between? [q] (q :: q :: q :: r)).filter (closes [q]) = none := by
  rw [Option.filter_eq_none_iff]
  intro body hb
  obtain ⟨x, hx, hb⟩ := Option.bind_eq_some_iff.1 hb
  rw [Text.after?_eq_some_iff, List.singleton_append, List.cons.injEq] at hx
  obtain ⟨-, rfl⟩ := hx
  have whole := Text.before?_eq_some_iff.1 hb
  cases body with
  | nil => cases whole
  | cons c body =>
    obtain rfl : q = c := (List.cons.inj whole).1
    have unescaped : q ≠ '\\' := by
      rintro rfl
      cases hq
    simp [closes, Quoted.closes, unescaped]

theorem body?_eq (hq : Nesting.isQuote q = true) (r : Text) :
    body? [q] (q :: r) = .ok (Quoted.body? q (q :: r)) := by
  have narrow : ∀ c ∈ [q, q, q], c.utf8Size = 1 := by simp [utf8Size_of_isQuote hq]
  have single :
    delimited? [q] (q :: r) = .ok ((Quoted.between? [q] (q :: r)).filter (Quoted.closes q)) :=
    delimited?_eq (fun c hc => narrow c (List.mem_cons.2 (Or.inl (List.mem_singleton.1 hc)))) ⟨r,
      rfl⟩
  rw [body?, Quoted.body?]
  dsimp only [List.singleton_append, List.cons_append, List.nil_append]
  by_cases starts : Text.startsWith [q, q, q] (q :: r) = true
  · obtain ⟨x, hx⟩ := Option.isSome_iff_exists.1 starts
    have whole := Text.after?_eq_some_iff.1 hx
    have triple :
      delimited? [q, q, q] (q :: r) =
        .ok ((Quoted.between? [q, q, q] (q :: r)).filter Quoted.closesTriple) :=
      delimited?_eq narrow ⟨x, whole.symm⟩
    by_cases long : 6 ≤ (q :: r).length
    · have bytes : 6 ≤ byteSize (q :: r) := Nat.le_trans long (Text.length_le_byteSize _)
      rw [if_pos ⟨bytes, starts⟩, if_pos ⟨long, starts⟩, triple]
    · have short : ¬ (6 ≤ (q :: r).length ∧ Text.startsWith [q, q, q] (q :: r) = true) :=
        fun h => long h.1
      rw [if_neg short]
      split
      · -- many bytes, but too few characters for two delimiters
        have unclosed : Quoted.between? [q, q, q] (q :: r) = none := by
          rw [Option.eq_none_iff_forall_ne_some]
          intro body hb
          obtain ⟨y, hy, hb⟩ := Option.bind_eq_some_iff.1 hb
          rw [Text.after?_eq_some_iff.1 hy, Text.before?_eq_some_iff.1 hb] at long
          simp only [List.length_append, List.length_cons, List.length_nil] at long
          omega
        rw [triple, unclosed, Option.filter_none, whole]
        exact congrArg Except.ok (filter_closes_eq_none hq x).symm
      · exact single
  · rw [if_neg (fun h => starts h.2), if_neg (fun h => starts h.2), single]

theorem utf8Size_of_isPrefixLetter {c : Char} (h : Quoted.isPrefixLetter c = true) :
    c.utf8Size = 1 := by
  have narrow : "fFrRbBuU".toList.all (fun c => c.utf8Size == 1) = true := rfl
  exact eq_of_beq (List.all_eq_true.1 narrow c (List.contains_iff_mem.1 h))

theorem quoted?_eq (s : Text) : quoted? s = .ok (Quoted.ofText? s) := by
  rw [quoted?, find?_eq, Quoted.ofText?]
  cases h : Text.cutAtFirst Nesting.isQuote s with
  | none => rfl
  | some parts =>
    obtain ⟨letters, q, r⟩ := parts
    obtain ⟨rfl, hq, -⟩ := Text.eq_of_cutAtFirst h
    have first : upTo (q :: r) 1 = .ok [q] := by
      have cut := upTo_append [q] r
      rwa [Text.byteSize_cons, utf8Size_of_isQuote hq] at cut
    -- prefix letters are one byte each, so that two of them are two bytes
    have few : (2 < byteSize letters || !letters.all Quoted.isPrefixLetter) = true ↔
        ¬ (letters.length ≤ 2 ∧ letters.all Quoted.isPrefixLetter = true) := by
      cases hl : letters.all Quoted.isPrefixLetter with
      | false => simp
      | true =>
        rw [Text.byteSize_eq_length fun c hc =>
          utf8Size_of_isPrefixLetter (List.all_eq_true.1 hl c hc)]
        simp
    simp only [Option.map_some, Option.bind_some, bind, Except.bind, upTo_append, behind_append,
      first, body?_eq hq]
    by_cases hl : letters.length ≤ 2 ∧ letters.all Quoted.isPrefixLetter = true
    · rw [if_neg fun h => few.1 h hl, if_pos hl]
    · rw [if_pos (few.2 hl), if_neg hl]

end

def startsNumber (s : Text) : Except Panic Bool :=
  match s with
  | [] => .ok false
  | c :: _ =>
    if Number.isDigit c then .ok true
    else if c == '-' || c == '+' || c == '.' then do
      match ← behind s 1 with
      | [] => .ok false
      | d :: _ => .ok (Number.isDigit d || d == '.')
    else .ok false

def number? (s : Text) : Except Panic (Option Value) :=
  do if ← startsNumber s then .ok (numberLiteral? s) else .ok none

theorem startsNumber_eq (s : Text) : startsNumber s = .ok (SourcePreview.startsNumber s) := by
  cases s with
  | nil => rfl
  | cons c r =>
    unfold startsNumber SourcePreview.startsNumber
    dsimp only
    cases hd : Number.isDigit c with
    | true => rfl
    | false =>
      cases hc : c == '-' || c == '+' || c == '.' with
      | false => rfl
      | true =>
        have narrow : c.utf8Size = 1 := by
          simp only [Bool.or_eq_true, beq_iff_eq] at hc
          rcases hc with (rfl | rfl) | rfl <;> rfl
        have rest : behind (c :: r) 1 = .ok r := behind_cons narrow [] r
        rw [rest]
        cases r <;> rfl

theorem number?_eq (s : Text) : number? s = .ok (numberLiteral? s) := by
  rw [number?, startsNumber_eq]
  cases h : SourcePreview.startsNumber s with
  | true => rfl
  | false => simp [numberLiteral?, h, bind, Except.bind]

/-- A call that covers a text without blanks around it. -/
def call? (s : Text) : Except Panic (Option Call) :=
  match find? (· == '(') s with
  | none => .ok none
  | some opening => do
    let function := Text.trimEnd (← upTo s opening)
    if Call.isPath function then
      .ok ((← enclosedFrom? s opening).map fun inner => ⟨function, inner⟩) else .ok none

theorem call?_eq (s : Text) : call? (Text.trim s) = .ok (Call.ofText? (Text.trim s)) := by
  rw [call?, find?_eq, Call.ofText?]
  cases h : Text.cutAtFirst (· == '(') (Text.trim s) with
  | none => rfl
  | some parts =>
    obtain ⟨function, c, r⟩ := parts
    obtain ⟨whole, hc, -⟩ := Text.eq_of_cutAtFirst h
    obtain rfl := eq_of_beq hc
    -- the text ends with its last parenthesis, behind which nothing is left to trim
    have trimmed : Text.trim ('(' :: r) = '(' :: r := by
      refine Text.Tight.trim_eq ⟨List.cons_ne_nil _ _, fun d hd => ?_, fun d hd => ?_⟩
      · obtain rfl : '(' = d := Option.some.inj hd
        rfl
      · refine Text.getLast?_trim (s := s) ?_
        rw [whole, List.getLast?_append, hd]
        rfl
    rw [whole]
    simp only [Option.map_some, Option.bind_some, bind, Except.bind, upTo_append, enclosedFrom?_eq,
      trimmed]
    split <;> rfl

def arguments (call : Call) : Except Panic (List Text) :=
  if Text.isBlankText call.inner then .ok [] else splitTop ',' call.inner

theorem arguments_eq (call : Call) : arguments call = .ok call.arguments := by
  unfold arguments Call.arguments
  split
  · rfl
  · exact splitTop_eq ',' call.inner

def sequenceInside? (s : Text) : Except Panic (Option Text) :=
  let s := Text.trim s
  match Text.after? ['['] s with
  | some r =>
    match Text.dropLastIf (· == ']') r with
    | some inside => .ok (some inside)
    | none => enclosed? s
  | none => enclosed? s

theorem sequenceInside?_eq (s : Text) : sequenceInside? s = .ok (Call.sequenceInside? s) := by
  unfold sequenceInside? Call.sequenceInside?
  dsimp only
  generalize Text.trim s = s
  cases h : Text.after? ['['] s with
  | some r =>
    obtain rfl : s = '[' :: r := Text.after?_eq_some_iff.1 h
    dsimp only
    change _ = Except.ok (Text.dropLastIf (· == ']') r)
    cases Text.dropLastIf (· == ']') r with
    | some inside => rfl
    | none => exact enclosed?_eq ('[' :: r)
  | none =>
    dsimp only
    split
    · next r =>
      rw [Text.after?_singleton_cons] at h
      cases h
    · exact enclosed?_eq s

def sequence? (s : Text) : Except Panic (Option (List Text)) := do
  match ← sequenceInside? s with
  | none => .ok none
  | some inside =>
    if Text.isBlankText inside then .ok (some [])
    else
      let items ← splitTop ',' inside
      match items.getLast? with
      | some last => .ok (some (if Text.isBlankText last then items.dropLast else items))
      | none => .ok (some items)

theorem sequence?_eq (s : Text) : sequence? s = .ok (Call.sequence? s) := by
  rw [sequence?, sequenceInside?_eq, Call.sequence?]
  cases Call.sequenceInside? s with
  | none => rfl
  | some inside =>
    simp only [bind, Except.bind, splitTop_eq, Option.map_some]
    split
    · rfl
    · cases (Nesting.splitTop ',' inside).getLast? <;> rfl

/-- What a function computes from its arguments; only a single argument may have to be read as a
literal sequence. -/
def apply (function : Text) (arguments : List Text) : Except Panic Application :=
  match arguments with
  | [x] =>
    match Call.aggregate? function with
    | some kind => do
      match ← sequence? x with
      | some items => .ok (.aggregate kind items)
      | none => .ok .unknown
    | none =>
      if function = "len".toList then do
        match ← sequence? x with
        | some items => .ok (.itemCount items.length)
        | none => .ok (.textLength x)
      else .ok (Call.apply function arguments)
  | _ => .ok (Call.apply function arguments)

theorem apply_eq (function : Text) (arguments : List Text) :
    apply function arguments = .ok (Call.apply function arguments) := by
  unfold apply
  split
  · next x =>
    rw [sequence?_eq, Call.apply]
    cases Call.aggregate? function with
    | some kind =>
      simp only [bind, Except.bind, Call.aggregation]
      cases Call.sequence? x <;> rfl
    | none =>
      dsimp only
      split
      · simp only [bind, Except.bind]
        cases Call.sequence? x <;> rfl
      · rfl
  · rfl

def formOfTrimmed (s : Text) : Except Panic Form := do
  if s.isEmpty then .ok .unknown
  else
    match ← enclosed? s with
    | some inner => .ok (.group inner)
    | none =>
      match ← quoted? s with
      | some literal => .ok (.quoted literal)
      | none =>
        match ← number? s with
        | some value => .ok (.number value)
        | none =>
          if Text.isIdentifier s then .ok (.name s)
          else
            match ← cut? s with
            | some cut => .ok (.binary cut)
            | none =>
              match Text.after? ['-'] s with
              | some operand => .ok (.negation operand)
              | none =>
                match ← call? s with
                | some call => do .ok (.application (← apply call.function (← arguments call)))
                | none => .ok .unknown

def form (s : Text) : Except Panic Form := formOfTrimmed (Text.trim s)

theorem form_eq (s : Text) : form s = .ok (Form.ofText s) := by
  unfold form Form.ofText formOfTrimmed Form.ofTrimmed
  have call := call?_eq s
  generalize Text.trim s = s at call ⊢
  simp only [enclosed?_eq, quoted?_eq, number?_eq, cut?_eq, call, bind, Except.bind]
  split
  · rfl
  · cases Nesting.enclosed? s with
    | some inner => rfl
    | none =>
      cases Quoted.ofText? s with
      | some literal => rfl
      | none =>
        cases numberLiteral? s with
        | some value => rfl
        | none =>
          dsimp only
          split
          · rfl
          · cases Cut.ofText? s with
            | some cut => rfl
            | none =>
              cases h : Text.after? ['-'] s with
              | some operand =>
                obtain rfl : s = '-' :: operand := Text.after?_eq_some_iff.1 h
                rfl
              | none =>
                have unsigned : ∀ operand, s ≠ '-' :: operand := by
                  rintro operand rfl
                  rw [Text.after?_singleton_cons] at h
                  cases h
                cases Call.ofText? s with
                | none =>
                  dsimp only
                  split
                  · exact absurd rfl (unsigned _)
                  · rfl
                | some call =>
                  simp only [arguments_eq, apply_eq]
                  rfl

end SourcePreview.Offset
