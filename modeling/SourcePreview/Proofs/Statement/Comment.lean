import SourcePreview.Proofs.Highlight.Comment
import SourcePreview.Proofs.Text.Breaks
import SourcePreview.Statement.Line

/-! What a line that begins with a comment does: nothing (`action?_step`). Its code is empty, or it
begins with a delimiter; and no line of the first dialect that begins with a quote is a call, a
header or an assignment. -/

namespace SourcePreview

open Text (Solid)

namespace Text

variable {c sep : Char} {r s t : Text}

theorem trimEnd_cons (hc : isBlank c = false) (r : Text) : trimEnd (c :: r) = c :: trimEnd r := by
  have single : Solid [c] := ⟨List.cons_ne_nil c [], by simpa using hc⟩
  have start : trimStart (c :: r) = c :: r := List.dropWhile_cons_of_neg (by simp [hc])
  have h := single.trim_append r
  rwa [List.singleton_append, trim, start] at h

theorem trim_cons (hc : isBlank c = false) (r : Text) : trim (c :: r) = c :: trimEnd r := by
  have single : Solid [c] := ⟨List.cons_ne_nil c [], by simpa using hc⟩
  exact single.trim_append r

theorem splitAll_cons (hc : c ≠ sep) (r : Text) :
    ∃ part parts, splitAll sep (c :: r) = (c :: part) :: parts := by
  rw [splitAll, if_neg (by simpa using hc)]
  cases splitAll sep r with
  | nil => exact ⟨[], [], rfl⟩
  | cons part parts => exact ⟨part, parts, rfl⟩

theorem isIdentifier_cons (hc : isNameStart c = false) (r : Text) :
    isIdentifier (c :: r) = false := by
  rw [isIdentifier, hc, Bool.false_and]

end Text

/-- A quote is no blank, no part of a name and no sign of an assignment. -/
structure QuoteChar (q : Char) : Prop where
  quote : Nesting.isQuote q = true
  filled : Text.isBlank q = false
  start : Text.isNameStart q = false
  part : Text.isNamePart q = false
  point : q ≠ '.'
  colon : q ≠ ':'
  opening : q ≠ '('
  hash : q ≠ '#'
  operator : Operator.ofChar? q = none

theorem quoteChar_double : QuoteChar '"' := by constructor <;> decide +kernel

theorem quoteChar_single : QuoteChar '\'' := by constructor <;> decide +kernel

variable {q : Char} {r : Text}

theorem Call.ofText?_of_quote (hq : QuoteChar q) (r : Text) : Call.ofText? (q :: r) = none := by
  rw [Call.ofText?, Text.cutAtFirst, if_neg (by simpa using hq.opening)]
  cases Text.cutAtFirst (· == '(') r with
  | none => rfl
  | some parts =>
    obtain ⟨part, parts', hs⟩ := Text.splitAll_cons hq.point (Text.trimEnd parts.1)
    have path : Call.isPath (Text.trimEnd (q :: parts.1)) = false := by
      rw [Call.isPath, Text.trimEnd_cons hq.filled, hs, List.all_cons,
        Text.isIdentifier_cons hq.start, Bool.false_and]
    simp [path]

namespace AssignmentParts

variable {parts : AssignmentParts} {n : Nesting} {before s : Text}

theorem head?_atEquals (hq : QuoteChar q) (h : atEquals before s = some parts)
    (first : before.getLast? = some q) :
    parts.left.head? = some q := by
  unfold atEquals at h
  split at h
  · cases h
  · cases before with
    | nil => cases first
    | cons c left =>
      dsimp only at h
      split at h
      · cases h
      · split at h
        · next op ho =>
          cases h
          cases left with
          | nil =>
            obtain rfl : c = q := by simpa using first
            rw [hq.operator] at ho
            cases ho
          | cons d left => rwa [List.head?_reverse, ← List.getLast?_cons_cons]
        · cases h
          rwa [List.head?_reverse]

theorem head?_scan (hq : QuoteChar q) (h : scan n before s = some parts)
    (first : before.getLast? = some q) :
    parts.left.head? = some q := by
  induction s generalizing n before with
  | nil => cases h
  | cons c r ih =>
    rw [scan] at h
    split at h
    · exact head?_atEquals hq h first
    · refine ih h ?_
      cases before with
      | nil => cases first
      | cons d before => rwa [List.getLast?_cons_cons]

theorem head?_ofText? (hq : QuoteChar q) (h : ofText? (q :: r) = some parts) :
    parts.left.head? = some q := by
  rw [ofText?, scan, if_neg (by simp [Nesting.isTop, hq.quote])] at h
  exact head?_scan hq h rfl

end AssignmentParts

namespace Python

theorem action?_simple (hq : QuoteChar q) (r : Text) : (simple (q :: r)).action? = none := by
  have input : input? none (q :: r) = none := by
    rw [input?, Text.trim_cons hq.filled, Call.ofText?_of_quote hq]
    rfl
  rw [simple, input, assignment?]
  cases hp : AssignmentParts.ofText? (q :: r) with
  | none => rfl
  | some parts =>
    have head := AssignmentParts.head?_ofText? hq hp
    obtain ⟨left, hl⟩ : ∃ left, parts.left = q :: left := by
      cases hl : parts.left with
      | nil => simp [hl] at head
      | cons c left =>
        rw [hl] at head
        exact ⟨left, congrArg (· :: left) (Option.some.inj head)⟩
    obtain ⟨part, others, hs⟩ := Text.splitAll_cons hq.colon left
    have target :
        Text.isIdentifier (Text.trim ((Text.splitAll ':' parts.left).headD [])) = false := by
      rw [hl, hs, List.headD_cons, Text.trim_cons hq.filled, Text.isIdentifier_cons hq.start]
    simp only [Option.map_some, Option.getD_some, target, Bool.not_false, if_true]
    rfl

theorem action?_of_quote (hq : QuoteChar q) (r : Text) : (statement (q :: r)).action? = none := by
  obtain ⟨code, hc⟩ : ∃ code, Dialect.python.code (q :: r) = q :: code := by
    refine ⟨(Dialect.python.cutComment (Nesting.start.step q) r).1, ?_⟩
    rw [Dialect.code, Dialect.cutComment, if_neg (by simp [Dialect.startsComment, hq.hash])]
  have word : Text.leadingWord (q :: Text.trimEnd code) = ([], q :: Text.trimEnd code) := by
    simp [Text.leadingWord, Text.spanOf, hq.part]
  have shape : ∃ s, shape (q :: r) = .complete s ∧ s.action? = none := by
    have print : print? [] (q :: Text.trimEnd code) = none := rfl
    have structural : Dialect.python.isStructural [] = false := by decide
    simp only [shape, hc, Text.trim_cons hq.filled, word, print, structural, Bool.false_and,
      List.isEmpty_cons, Bool.false_eq_true, if_false]
    split
    · exact ⟨.comment, rfl, rfl⟩
    · exact ⟨_, rfl, action?_simple hq _⟩
  obtain ⟨s, hs, ha⟩ := shape
  rw [statement_eq, hs]
  exact ha

end Python

/-- A line that begins with a block has its code begin with it, or else no code that does
anything. -/
theorem Java.action?_of_opening (m : Text) :
    (Java.statement ("/*".toList ++ m)).action? = none := by
  have solid : Solid "/*".toList := .of_any (by decide) (by decide)
  obtain ⟨code, hc⟩ : ∃ code, Dialect.java.code ("/*".toList ++ m) = "/*".toList ++ code :=
    ⟨(Dialect.java.cutComment ((Nesting.start.step '/').step '*') m).1, rfl⟩
  have starts : Text.startsWith "/*".toList ("/*".toList ++ Text.trimEnd code) = true := by
    rw [Text.startsWith, Text.after?_eq_some_iff.2 rfl]
    rfl
  have shape : Java.shape ("/*".toList ++ m) = .complete .comment := by
    rw [Java.shape, hc, solid.trim_append, starts]
    rfl
  rw [Java.statement_eq, shape]
  rfl

namespace Dialect

variable {d : Dialect} {s : Text}

theorem action?_of_marker (d : Dialect) (m : Text) :
    (d.statement (d.lineMarker ++ m)).action? = none := by
  have withoutCode : ∀ line, (Statement.withoutCode line).action? = none := by
    intro line
    unfold Statement.withoutCode
    split <;> rfl
  cases d with
  | python =>
    rw [statement, Python.statement_eq]
    exact withoutCode _
  | java =>
    rw [statement, Java.statement_eq]
    exact withoutCode _

/-- What begins with a comment carries nothing out. -/
theorem action?_step
    (h : d.lineMarker <+: s ∨ ∃ opening closing, (opening, closing) ∈ d.blockDelimiters ∧
      opening <+: s) :
    (d.step none s).1.action? = none := by
  rw [step]
  split
  · rfl
  · change (d.statement s).action? = none
    rcases h with ⟨m, rfl⟩ | ⟨opening, closing, mem, m, rfl⟩
    · exact action?_of_marker d m
    · cases d with
      | java =>
        simp only [blockDelimiters, List.mem_singleton, Prod.mk.injEq] at mem
        obtain ⟨rfl, -⟩ := mem
        exact Java.action?_of_opening m
      | python =>
        simp only [blockDelimiters, List.mem_cons, List.not_mem_nil, or_false, Prod.mk.injEq] at mem
        rcases mem with ⟨rfl, -⟩ | ⟨rfl, -⟩
        · exact Python.action?_of_quote quoteChar_double _
        · exact Python.action?_of_quote quoteChar_single _

end Dialect

end SourcePreview
