import SourcePreview.Proofs.Statement.Java
import SourcePreview.Proofs.Statement.Python

/-! Programs printed line by line. The scan of statements inverts the printing: each line is read
back as the statement that was printed on it. -/

namespace SourcePreview

/-- In both dialects the statements of a printed program are the ones that were printed, line by
line. -/
theorem Line.scan_write :
    (∀ program : List Python.Printed,
      Line.scan .python (Text.join ['\n'] (program.map Python.Printed.write)) =
        Line.numberFrom 1 (program.map fun p => .action p.action)) ∧
    ∀ program : List Java.Printed,
      Line.scan .java (Text.join ['\n'] (program.map Java.Printed.write)) =
        Line.numberFrom 1 (program.map fun p => .action p.action) := by
  constructor
  · intro program
    rw [Line.scan_join .python (List.forall_mem_map.2 fun p _ => p.line_write), List.map_map]
    exact congrArg _ (List.map_congr_left fun p _ => p.statement_write)
  · intro program
    rw [Line.scan_join .java (List.forall_mem_map.2 fun p _ => p.line_write), List.map_map]
    exact congrArg _ (List.map_congr_left fun p _ => p.statement_write)

/-- Signs, brackets and marks of comments in quotes mislead no reading of a line. -/
theorem Line.scan_write_of_quoted :
    let e := "f[a == 'b', \"# (\"] // 2".toList
    let g := "(\"//\" + '\x7b') / 2".toList
    Line.scan .python (Text.join ['\n']
        ["print = ".toList ++ e, "x /= ".toList ++ e, "x = int(input(".toList ++ e ++ "))".toList,
          "print(".toList ++ e ++ ", end=".toList ++ e ++ ")".toList]) =
      Line.numberFrom 1 [.action (.assign "print".toList e),
        .action (.assign "x".toList ("x / (".toList ++ e ++ ")".toList)),
        .action (.input ⟨some "x".toList, .int, some e⟩),
        .action (.print ⟨[e], none, .expression e, .stdout⟩)] ∧
    Line.scan .java (Text.join ['\n']
        ["static x = ".toList ++ g ++ ";".toList, "int x = sc.nextInt();".toList,
          "System.err.print(".toList ++ g ++ ");".toList]) =
      Line.numberFrom 1 [.action (.assign "x".toList g),
        .action (.input ⟨some "x".toList, .int, none⟩),
        .action (.print ⟨[g], none, .nothing, .stderr⟩)] := by
  intro e g
  have formed : Dialect.python.WellFormed e := by decide +kernel
  have formed' : Dialect.java.WellFormed g := by decide +kernel
  have uncalled : ∀ call : Call, ¬ call.Covers e := fun call => Call.not_covers (by decide)
  have uncalled' : ∀ call : Call, ¬ call.Covers g := fun call => Call.not_covers (by decide)
  have name : Text.isIdentifier "print".toList = true ∧ Text.isIdentifier "x".toList = true := by
    decide +kernel
  have named : Java.Name "x".toList ∧ Java.Name "static".toList ∧ Java.Name "int".toList := by
    refine ⟨⟨?_, ?_⟩, ⟨?_, ?_⟩, ⟨?_, ?_⟩⟩ <;> decide +kernel
  have unnamed : ¬ Python.KeywordForm e :=
    (Python.keywordArgument?_eq_none_iff formed.tight).1 (by decide +kernel)
  have undivided : Nesting.Undivided ',' e := by decide +kernel
  refine ⟨?_, ?_⟩
  · exact Line.scan_write.1 [.assign "print".toList e name.1 formed fun ⟨_, h⟩ =>
      h.elim (uncalled _) fun ⟨_, _, h, _⟩ => uncalled _ h,
      .update "x".toList .div e name.2 (by decide) formed,
      .input "x".toList (some .int) (some e) name.2 (by simp [formed]),
      .print [e] none (some e) (by simp [formed, undivided]) (by simp [unnamed])]
  · exact Line.scan_write.2
      [.assign (some "static".toList) "x".toList g (by rintro _ ⟨⟩; exact named.2.1) named.1 formed'
        (fun ⟨_, _, _, _, _, h⟩ => uncalled' _ h) (by decide),
      .read (some "int".toList) "x".toList "sc".toList "nextInt".toList .int
        (by rintro _ ⟨⟩; exact named.2.2) named.1
        (by decide +kernel) (by decide),
      .print .stderr false (some g) (by simp [formed'])]

end SourcePreview
