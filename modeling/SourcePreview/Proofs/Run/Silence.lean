import SourcePreview.Proofs.Console.Silence
import SourcePreview.Run

/-! A run never writes the stop marker itself, whatever its source prints: the marker is a warning,
and the warnings of a run are about answers that cannot be read. -/

namespace SourcePreview

theorem Entry.ne_stopMarker_of_kind {e : Entry} (h : e.kind ≠ .warning) : e ≠ .stopMarker := by
  rintro rfl
  exact h rfl

theorem Entry.info_ne_stopMarker (text : Text) : info text ≠ .stopMarker :=
  ne_stopMarker_of_kind fun h => nomatch h

theorem Entry.error_ne_stopMarker (text : Text) : error text ≠ .stopMarker :=
  ne_stopMarker_of_kind fun h => nomatch h

theorem Text.append_ne_append {a b : Text} (n : Nat) (ha : n ≤ a.length) (hb : n ≤ b.length)
    (h : a.take n ≠ b.take n) (x y : Text) : a ++ x ≠ b ++ y := by
  intro he
  have ht := congrArg (List.take n) he
  rw [List.take_append_of_le_length ha, List.take_append_of_le_length hb] at ht
  exact h ht

theorem InputSite.invalid_ne_stopMarker (site : InputSite) (answer : Text) :
    Entry.warning (site.invalidText answer) ≠ .stopMarker := by
  intro h
  simp only [Entry.stopMarker, Entry.warning, Entry.mk.injEq, and_true] at h
  unfold invalidText at h
  rw [List.append_assoc, List.append_assoc, List.append_assoc, List.append_assoc,
    ← List.append_nil ">>> Execution stopped".toList] at h
  exact Text.append_ne_append 1 (by decide) (by decide) (by decide) _ _ h

namespace RunDialogue

variable (d : Dialect) (s : RunState)

theorem silent_withText {text : Except Overwide Text} {next : Text → RunDialogue}
    (h : ∀ text, (next text).Silent) :
    (withText text next).Silent := by
  cases text with
  | error e => trivial
  | ok text => exact h text

theorem silent_map {α : Type} {next : RunDialogue} {line : α → Entry} (texts : List α)
    (hk : ∀ text, (line text).kind ≠ .warning) (h : next.Silent) :
    (Dialogue.sayAll (texts.map line) next).Silent := by
  refine Dialogue.silent_sayAll (fun e he => ?_) h
  obtain ⟨text, -, rfl⟩ := List.mem_map.1 he
  exact Entry.ne_stopMarker_of_kind (hk text)

theorem silent_receive (site : InputSite) (prompt answer : Text) {next : RunState → RunDialogue}
    (h : ∀ s, (next s).Silent) : (receive site prompt answer s next).Silent := by
  have echo : Entry.echo prompt answer ≠ .stopMarker :=
    Entry.ne_stopMarker_of_kind fun hk => nomatch hk
  unfold receive
  cases Value.coerce answer site.kind with
  | ok value => exact ⟨echo, h _⟩
  | error e => exact ⟨echo, site.invalid_ne_stopMarker answer, h _⟩

theorem silent_perform {next : RunState → RunDialogue} (h : ∀ s, (next s).Silent) (a : Action) :
    (perform d s next a).Silent := by
  cases a with
  | print p =>
    refine silent_withText fun text => ?_
    cases p.stream with
    | stdout => exact silent_map _ (fun _ hk => nomatch hk) (h _)
    | stderr => exact silent_map _ (fun _ hk => nomatch hk) (h _)
  | assign target expr =>
    rw [perform]
    cases assignedValue s.env d expr with
    | error e => trivial
    | ok value => exact h _
  | input site =>
    refine silent_withText fun prompt => ?_
    dsimp only
    split
    · exact silent_receive _ site prompt _ h
    · exact fun answer => silent_receive _ site prompt answer h

theorem silent_finish : (finish d s).Silent := by
  refine Dialogue.silent_sayAll (fun e he => Entry.ne_stopMarker_of_kind ?_) trivial
  rcases List.mem_append.1 he with he | he
  · split at he
    · cases he
    · rw [List.mem_singleton.1 he]
      exact fun hk => nomatch hk
  · rw [List.mem_singleton.1 he]
    exact fun hk => nomatch hk

theorem silent_play (statements : List Statement) : (play d s statements).Silent := by
  induction statements generalizing s with
  | nil => exact silent_finish d s
  | cons statement rest ih =>
    rw [play]
    cases statement.action? with
    | none => exact ih s
    | some a => exact silent_perform d s ih a

theorem silent_gather {next : List Text → RunDialogue} (h : ∀ answers, (next answers).Silent)
    (actions : List Action) (openLine : Text) (answers : List Text) :
    (gather d openLine answers next actions).Silent := by
  induction actions generalizing openLine answers with
  | nil => exact h answers
  | cons a rest ih =>
    cases a with
    | assign target expr => exact ih openLine answers
    | print p =>
      rw [gather]
      cases p.stream with
      | stderr => exact ih openLine answers
      | stdout => exact silent_withText fun text => ih _ answers
    | input site => exact silent_withText fun prompt answer => ih [] (answers ++ [answer])

end RunDialogue

theorem silent_preview (d : Dialect) (mode : InputMode) (source : Text) :
    (preview d mode source).Silent := by
  refine RunDialogue.silent_map _ (fun _ hk => nomatch hk) ?_
  cases mode with
  | perCall => exact RunDialogue.silent_play d _ _
  | batch => exact RunDialogue.silent_gather d (fun answers => RunDialogue.silent_play d _ _) _ _ _

end SourcePreview
