import SourcePreview.Proofs.Expression.Operation
import SourcePreview.Proofs.Statement.Java
import SourcePreview.Proofs.Statement.Python

/-! Updates: assignments with an operator, increments and decrements. The new value is written as a
text, with the whole right side in parentheses; read as an expression, that text is the operation on
the variable and the right side (`scan_update`). -/

namespace SourcePreview

open AssignmentParts (joined written)

variable {name e : Text}

namespace Dialect

/-- What ends the line of a statement. -/
def terminator : Dialect → Text
  | .python => []
  | .java => [';']

/-- The blanks around the right side of an update do not get into its expression. -/
theorem assign_trimEnd (op : Operator) :
    Statement.assign name (some op) (Text.trimEnd (' ' :: e)) =
      .action (.assign name (operationText name op (Text.trim e))) := by
  have inner : Text.trim (Text.trimEnd (' ' :: e)) = Text.trim e :=
    (Text.trim_trimEnd _).trans (Text.trim_blanks_append (s := [' ']) rfl e)
  rw [Statement.assign, inner]
  rfl

section

variable (identifier : Text.isIdentifier name = true) (op : Operator)
include identifier

theorem newline_not_mem_update (d : Dialect) (sealed : d.Sealed e) :
    '\n' ∉ written name (some op) e ++ d.terminator := by
  have line : '\n' ∉ joined name (some op) (' ' :: e) :=
    AssignmentParts.newline_not_mem_joined (fun c hc =>
      Or.inl ((atom_of_isIdentifier identifier).parts c hc)) _
      (by simp [sealed.single])
  rw [List.mem_append, not_or]
  exact ⟨line, by cases d <;> decide⟩

theorem python_update (free : Dialect.python.isStructural name = false)
    (sealed : Dialect.python.Sealed e) :
    CodeLine (Text.trim (written name (some op) e ++ Dialect.python.terminator)) ∧
      Dialect.python.statement (Text.trim (written name (some op) e ++ Dialect.python.terminator)) =
        .action (.assign name (operationText name op (Text.trim e))) := by
  have trimmed : Text.trim (written name (some op) e ++ Dialect.python.terminator) =
      joined name (some op) (Text.trimEnd (' ' :: e)) := by
    have front :=
      AssignmentParts.tight_sign (atom_of_isIdentifier identifier).operand.tight (some op)
    rw [terminator, List.append_nil, AssignmentParts.joined_eq, ← front.trim_append,
      ← AssignmentParts.joined_eq]
    rfl
  rw [trimmed]
  refine ⟨(Python.line_joined identifier (some op) sealed.rightSide).codeLine, ?_⟩
  rw [statement, Python.statement_joined identifier sealed.rightSide fun _ => free]
  exact assign_trimEnd op

theorem java_update (free : Dialect.java.isStructural name = false)
    (sealed : Dialect.java.Sealed e) :
    CodeLine (Text.trim (written name (some op) e ++ Dialect.java.terminator)) ∧
      Dialect.java.statement (Text.trim (written name (some op) e ++ Dialect.java.terminator)) =
        .action (.assign name (operationText name op (Text.trim e))) := by
  obtain ⟨b, hb, whole⟩ := Text.exists_trimEnd (' ' :: e)
  have split : written name (some op) e ++ Dialect.java.terminator =
      joined (Java.declaration none name) (some op) (Text.trimEnd (' ' :: e)) ++ (b ++ [';']) := by
    rw [← List.append_assoc, AssignmentParts.joined_eq, List.append_assoc _ _ b, ← whole,
      ← AssignmentParts.joined_eq]
    rfl
  have typed : ∀ type ∈ (none : Option Text), Java.Name type := by simp
  have line :=
    Java.codeLine_ended
      (Java.line_joined typed ⟨identifier, free⟩ (some op) sealed.rightSide).codeLine b
  rw [split, line.tight.trim_eq]
  refine ⟨line, ?_⟩
  rw [statement, Java.statement_joined typed ⟨identifier, free⟩ (some op) sealed.rightSide hb]
  exact assign_trimEnd op

theorem scan_written_update {d : Dialect} (free : d.isStructural name = false)
    (sealed : d.Sealed e) :
    Line.scan d (written name (some op) e ++ d.terminator) =
      [⟨1, .action (.assign name (operationText name op (Text.trim e)))⟩] := by
  obtain ⟨code, read⟩ : CodeLine (Text.trim (written name (some op) e ++ d.terminator)) ∧
      d.statement (Text.trim (written name (some op) e ++ d.terminator)) =
        .action (.assign name (operationText name op (Text.trim e))) := by
    cases d with
    | python => exact python_update identifier op free sealed
    | java => exact java_update identifier op free sealed
  rw [Line.scan_line d (newline_not_mem_update identifier op d sealed) code, read]

end

end Dialect

namespace Java

/-- A variable with a doubled sign in front of it or behind it. -/
def stepped (front : Bool) (op : Operator) (name : Text) : Text :=
  if front then [op.symbol, op.symbol] ++ name else name ++ [op.symbol, op.symbol]

theorem isNamePart_symbol (op : Operator) : Text.isNamePart op.symbol = false := by
  cases op <;> decide

section

variable (named : Name name) (front : Bool) (op : Operator)
include named

theorem forall_mem_stepped :
    ∀ c ∈ stepped front op name, c = op.symbol ∨ Text.isNamePart c = true := by
  have parts := (atom_of_isIdentifier named.identifier).parts
  intro c mem
  cases front with
  | true =>
    rcases List.mem_append.1 mem with mem | mem
    · exact Or.inl (by simpa using mem)
    · exact Or.inr (parts c mem)
  | false =>
    rcases List.mem_append.1 mem with mem | mem
    · exact Or.inr (parts c mem)
    · exact Or.inl (by simpa using mem)

theorem not_mem_stepped {c : Char} (sign : Text.isNamePart c = false) (other : c ≠ op.symbol) :
    c ∉ stepped front op name := by
  intro mem
  rcases forall_mem_stepped named front op c mem with h | part
  · exact other h
  · rw [sign] at part
    cases part

theorem doubled?_stepped : doubled? [op.symbol, op.symbol] (stepped front op name) = some name := by
  have atom := atom_of_isIdentifier named.identifier
  cases front with
  | true =>
    have last : (stepped true op name).getLast? ≠ some op.symbol := by
      intro last
      rw [stepped, if_pos rfl, List.getLast?_append_of_ne_nil _ atom.ne_nil] at last
      have part := atom.parts _ (List.mem_of_getLast? last)
      rw [isNamePart_symbol] at part
      cases part
    have behind : Text.after? [op.symbol, op.symbol] (stepped true op name) = some name :=
      Text.after?_eq_some_iff.2 rfl
    rw [doubled?, Text.before?_eq_none rfl last, behind]
    rfl
  | false =>
    have before : Text.before? [op.symbol, op.symbol] (stepped false op name) = some name :=
      Text.before?_eq_some_iff.2 rfl
    rw [doubled?, before]
    rfl

theorem doubled?_stepped_eq_none {c : Char} (sign : Text.isNamePart c = false)
    (other : c ≠ op.symbol) :
    doubled? [c, c] (stepped front op name) = none := by
  have absent := not_mem_stepped named front op sign other
  have ahead : Text.after? [c, c] (stepped front op name) = none := by
    rw [← Option.isNone_iff_eq_none, ← Option.isSome_eq_false_iff]
    exact Text.startsWith_of_head?_ne fun h => absent (List.mem_of_head? h)
  rw [doubled?, Text.before?_eq_none rfl fun h => absent (List.mem_of_getLast? h), ahead]
  rfl

theorem increment?_stepped (additive : op.isAdditive = true) :
    increment? (stepped front op name) = some (.assign name (some op) ['1']) := by
  have found := doubled?_stepped named front op
  have trimmed := (atom_of_isIdentifier named.identifier).operand.tight.trim_eq
  have read :
    ((doubled? "++".toList (stepped front op name)).map fun name => (name, Operator.add)).or
      ((doubled? "--".toList (stepped front op name)).map fun name => (name, Operator.sub)) =
        some (name, op) := by
    cases op with
    | add =>
      have plus : doubled? "++".toList (stepped front .add name) = some name := found
      rw [plus]
      rfl
    | sub =>
      have plus : doubled? "++".toList (stepped front .sub name) = none :=
        doubled?_stepped_eq_none named front .sub (c := '+') (by decide) (by decide)
      have minus : doubled? "--".toList (stepped front .sub name) = some name := found
      rw [plus, minus]
      rfl
    | mul | div => cases additive
  rw [increment?, read, Option.bind_eq_bind, Option.bind_some]
  dsimp only
  rw [trimmed, if_pos named.identifier]
  rfl

theorem simple_stepped (additive : op.isAdditive = true) :
    simple (stepped front op name) = .assign name (some op) ['1'] := by
  have undotted : '.' ∉ name := (atom_of_isIdentifier named.identifier).not_mem (by decide)
  have symbol : op.symbol ≠ '.' := by cases op <;> decide
  have unprinted : print? (stepped front op name) = none := by
    cases front with
    | true =>
      have unnamed : print? ([] ++ op.symbol :: op.symbol :: name) = none :=
        print?_eq_none List.not_mem_nil (isNamePart_symbol op) symbol
      exact unnamed
    | false => exact print?_eq_none undotted (isNamePart_symbol op) symbol
  have unassigned : AssignmentParts.ofText? (stepped front op name) = none := by
    have absent : '=' ∉ stepped front op name :=
      not_mem_stepped named front op (by decide) (by cases op <;> decide)
    have passed : Nesting.Undivided '=' (stepped front op name) := .of_not_mem absent
    have scanned := AssignmentParts.scan_append passed [] []
    rwa [List.append_nil] at scanned
  rw [simple, unprinted, assignment?, unassigned, increment?_stepped named front op additive]
  rfl

theorem free_stepped : Dialect.java.isStructural
    (Text.leadingWord (dropModifiers (stepped front op name))).1 = false := by
  have sign := isNamePart_symbol op
  cases front with
  | true => exact free_of_sign sign _
  | false =>
    refine free_of_name named sign ?_
    have kept : Text.trimStart [op.symbol, op.symbol] = [op.symbol, op.symbol] := by
      cases op <;> rfl
    rw [kept]
    exact free_of_sign sign _

end

section

variable (named : Name name) (front : Bool) {op : Operator} (additive : op.isAdditive = true)
include named additive

theorem not_mem_stepped_of_codeless {c : Char} (mem : c ∈ codeless) :
    c ∉ stepped front op name := by
  have symbol : op.symbol ∉ codeless := by
    cases op with
    | add | sub => decide
    | mul | div => cases additive
  exact not_mem_stepped named front op (isNamePart_of_codeless mem) fun he => symbol (he ▸ mem)

theorem codeLine_stepped : CodeLine (stepped front op name) := by
  have inner := (atom_of_isIdentifier named.identifier).operand.tight
  have outer : Text.Tight [op.symbol, op.symbol] := by cases op <;> decide
  constructor
  · cases front with
    | true => exact outer.append [] inner
    | false => exact inner.append [] outer
  · exact fun c first mem =>
      not_mem_stepped_of_codeless named front additive mem (List.mem_of_head? first)

theorem clear_stepped : Dialect.java.Clear (stepped front op name) := by
  refine .of_plain fun c mem => ?_
  rcases forall_mem_stepped named front op c mem with rfl | part
  · cases op with
    | add | sub => decide
    | mul | div => cases additive
  · exact Token.plain_of_isNamePart part

theorem scan_stepped {ending : Text} (ends : ending = [] ∨ ending = [';']) :
    Line.scan .java (stepped front op name ++ ending) =
      [⟨1, .action (.assign name (operationText name op ['1']))⟩] := by
  have code := codeLine_stepped named front additive
  have clear := clear_stepped named front additive
  have free := free_stepped named front op
  have codeless_free : ∀ c ∈ codeless, (stepped front op name).getLast? ≠ some c :=
    fun c mem last =>
    not_mem_stepped_of_codeless named front additive mem (List.mem_of_getLast? last)
  have unbraced := codeless_free '{' (by decide)
  have unended := codeless_free ';' (by decide)
  obtain ⟨line, shaped⟩ : CodeLine (stepped front op name ++ ending) ∧
      shape (stepped front op name ++ ending) = .complete (simple (stepped front op name)) := by
    rcases ends with rfl | rfl
    · rw [List.append_nil]
      exact ⟨code, shape_of_unended code clear unbraced unended free⟩
    · exact ⟨codeLine_ended code [], shape_of_body code clear unbraced free⟩
  have single : '\n' ∉ stepped front op name ++ ending := by
    rw [List.mem_append, not_or]
    exact ⟨not_mem_stepped named front op (by decide) (by cases op <;> decide),
      by rcases ends with rfl | rfl <;> decide⟩
  have trimmed := line.tight.trim_eq
  rw [Line.scan_line .java single (by rwa [trimmed]), trimmed, Dialect.statement, statement_eq,
    shaped, simple_stepped named front op additive]
  rfl

end

end Java

theorem evaluate_one (env : Environment) (d : Dialect) :
    evaluate env d ['1'] = .ok (.value (.int 1)) := by
  have printed : (Tree.number 1 (by decide)).print ⟨true, true⟩ = ['1'] := by decide +kernel
  rw [← printed, Tree.evaluate_number]
  rfl

/-- An update gives a variable what the operation on it and on the whole right side comes to, and an
increment or a decrement what the operation with one does. -/
theorem Line.scan_update :
    (∀ (d : Dialect) (name : Text) (op : Operator) (e : Text), Text.isIdentifier name = true →
      d.isStructural name = false → d.Sealed e →
      ∃ expr, Line.scan d (written name (some op) e ++ d.terminator) =
          [⟨1, .action (.assign name expr)⟩] ∧
        ∀ env, evaluate env d expr =
          Evaluation.operation d op (evaluate env d name) (evaluate env d e)) ∧
    ∀ (name : Text) (op : Operator) (front : Bool) (ending : Text), Java.Name name →
      op.isAdditive = true → ending = [] ∨ ending = [';'] →
      ∃ expr, Line.scan .java (Java.stepped front op name ++ ending) =
          [⟨1, .action (.assign name expr)⟩] ∧
        ∀ env, evaluate env .java expr =
          Evaluation.operation .java op (evaluate env .java name) (.ok (.value (.int 1))) := by
  constructor
  · intro d name op e identifier free sealed
    refine ⟨_, Dialect.scan_written_update identifier op free sealed, fun env => ?_⟩
    rw [evaluate_operation (atom_of_isIdentifier identifier) op env d sealed.trim.closed,
      evaluate_congr_trim env d (Text.trim_trim e)]
  · intro name op front ending named additive ends
    refine ⟨_, Java.scan_stepped named front additive ends, fun env => ?_⟩
    rw [evaluate_operation (atom_of_isIdentifier named.identifier) op env .java
      (.of_plain (by decide)), evaluate_one]

/-- A right side with signs, a bracket and a comment marker in quotes and with blanks around it, and
a modifier as a variable. -/
theorem Line.scan_update_of_quoted :
    let e : Text := " y - \"=) #\" * (f(2) / 3) ".toList
    Text.isIdentifier "x".toList = true ∧ Dialect.python.isStructural "x".toList = false ∧
      Dialect.python.Sealed e ∧
      (∃ expr, Line.scan .python ("x *= ".toList ++ e) = [⟨1, .action (.assign "x".toList expr)⟩] ∧
        ∀ env, evaluate env .python expr =
          Evaluation.operation .python .mul (evaluate env .python "x".toList)
            (evaluate env .python e)) ∧
      Java.Name "static".toList ∧
      ∃ expr, Line.scan .java "static--;".toList = [⟨1, .action (.assign "static".toList expr)⟩] ∧
        ∀ env, evaluate env .java expr =
          Evaluation.operation .java .sub (evaluate env .java "static".toList)
            (.ok (.value (.int 1))) := by
  intro e
  have identifier : Text.isIdentifier "x".toList = true := by decide
  have free : Dialect.python.isStructural "x".toList = false := by decide
  have sealed : Dialect.python.Sealed e := by decide
  have named : Java.Name "static".toList := ⟨by decide, by decide⟩
  obtain ⟨updates, steps⟩ := Line.scan_update
  exact ⟨identifier, free, sealed, updates .python "x".toList .mul e identifier free sealed, named,
    steps "static".toList .sub false [';'] named rfl (Or.inr rfl)⟩

end SourcePreview
