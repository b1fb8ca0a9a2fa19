import Zmanim.Proofs.Formula.Form
import Zmanim.Proofs.Text.Place
/-! Where readers stop. -/

namespace Zmanim
open Text

variable {part text left : List Char} {Value : Type}

/-- A reading from the front of a text reaches a clean place of it. -/
def Reaches (text left : List Char) : Prop := ∃ taken, text = taken ++ left ∧ Clean taken left

namespace Reaches

theorem refl (text : List Char) : Reaches text text := ⟨[], rfl, nofun⟩

theorem length_le (reaches : Reaches text left) : left.length ≤ text.length := by
  obtain ⟨taken, rfl, -⟩ := reaches
  simp

theorem trans {middle : List Char} (first : Reaches text middle) (second : Reaches middle left) :
    Reaches text left := by
  obtain ⟨before, rfl, clean⟩ := first
  obtain ⟨taken, rfl, after⟩ := second
  refine ⟨before ++ taken, List.append_assoc .. |>.symm, fun returned => ?_⟩
  rcases List.eq_nil_or_concat taken with rfl | ⟨others, last, rfl⟩
  · exact clean (by simpa using returned)
  · exact after (by simpa using returned)

/-- A gap is skipped whole, so that no line feed is left after it. -/
theorem dropWhile (text : List Char) : Reaches text (text.dropWhile isGap) := by
  refine ⟨text.takeWhile isGap, List.takeWhile_append_dropWhile.symm, fun _ feed => ?_⟩
  exact absurd (stops_dropWhile text _ feed) (by decide)

/-- A solid part does not end in a carriage return. -/
theorem append (solid : Solid part) (left : List Char) : Reaches (part ++ left) left := by
  refine ⟨part, rfl, fun returned => ?_⟩
  exact absurd (solid.blankless _ (List.mem_of_getLast? returned)) (by decide)

end Reaches

namespace Reader

/-- An orderly reader takes a text up to a clean place, and when it fails it has noted clean places
of the text, one at least. -/
structure Orderly (reader : Reader Value) : Prop where
  taken : ∀ {text value left}, reader text = .ok (value, left) → Reaches text left
  noted : ∀ {text notes}, reader text = .error notes →
    notes ≠ [] ∧ ∀ note ∈ notes, Reaches text note.left

theorem orderly_pure (value : Value) : (pure value : Reader Value).Orderly where
  taken read := by
    obtain ⟨rfl, rfl⟩ := Prod.mk.inj (Except.ok.inj read)
    exact .refl _
  noted failed := by simp at failed

theorem Orderly.bind {Next : Type} {reader : Reader Value} {next : Value → Reader Next}
    (first : reader.Orderly) (second : ∀ value, (next value).Orderly) :
    (reader >>= next).Orderly where
  taken read := by
    obtain ⟨value, middle, begins, ends⟩ := bind_eq_ok_iff.mp read
    exact (first.taken begins).trans ((second value).taken ends)
  noted {text notes} failed := by
    rw [bind_apply] at failed
    cases begins : reader text with
    | ok result =>
        rw [begins] at failed
        obtain ⟨some, places⟩ := (second result.1).noted failed
        exact ⟨some, fun note member => (first.taken begins).trans (places note member)⟩
    | error earlier =>
        rw [begins] at failed
        obtain rfl := Except.error.inj failed
        exact first.noted begins

theorem orderly_gap : gap.Orderly where
  taken {text _ _} read := by
    obtain ⟨rfl, rfl⟩ := Prod.mk.inj (Except.ok.inj read)
    exact .dropWhile text
  noted failed := by simp [gap] at failed

theorem Orderly.spaced {reader : Reader Value} (orderly : reader.Orderly) :
    (spaced reader).Orderly :=
  orderly_gap.bind fun _ => orderly.bind fun value => orderly_gap.bind fun _ => orderly_pure value

theorem Orderly.expecting {reader : Reader Value} (orderly : reader.Orderly)
    (part : Expectation) : (expecting part reader).Orderly where
  taken read := orderly.taken (expecting_eq_ok_iff.mp read)
  noted {text notes} failed := by
    unfold Reader.expecting at failed
    split at failed
    · simp at failed
    · rename_i earlier inner
      obtain rfl := Except.error.inj failed
      obtain ⟨-, places⟩ := orderly.noted inner
      exact ⟨by simp, List.forall_mem_append.mpr ⟨places, by simpa using .refl text⟩⟩

theorem Orderly.either {first second : Reader Value} (one : first.Orderly)
    (other : second.Orderly) : (either first second).Orderly where
  taken read := by
    rcases either_eq_ok_iff.mp read with read | ⟨-, read⟩
    · exact one.taken read
    · exact other.taken read
  noted {text notes} failed := by
    unfold Reader.either at failed
    split at failed
    · simp at failed
    · split at failed
      · simp at failed
      · rename_i earlier inner
        obtain rfl := Except.error.inj failed
        obtain ⟨-, places⟩ := other.noted inner
        exact ⟨by simp, List.forall_mem_append.mpr ⟨places, by simpa using .refl text⟩⟩

/-- A scan that fails is noted where it began. -/
theorem orderly_ofScan {cause : Cause} {scan : List Char → Option (Value × List Char)}
    (taken : ∀ {text value left}, ofScan cause scan text = .ok (value, left) → Reaches text left) :
    (ofScan cause scan).Orderly where
  taken := taken
  noted {text notes} failed := by
    unfold ofScan at failed
    split at failed
    · simp at failed
    · obtain rfl := Except.error.inj failed
      exact ⟨by simp, by simpa using .refl text⟩

/-- What is read out of a text is solid, so that a clean place is reached after it. -/
theorem Reads.reaches {reader : Reader Value} {spelled : Value → List Char → Prop}
    {continued : Char → Bool} {value : Value} (reads : reader.Reads spelled continued)
    (read : reader text = .ok (value, left)) : Reaches text left := by
  obtain ⟨part, spells, rfl⟩ := reads.sound read
  exact .append (reads.solid spells) left

theorem Reads.orderly {cause : Cause} {scan : List Char → Option (Value × List Char)}
    {spelled : Value → List Char → Prop} {continued : Char → Bool}
    (reads : (ofScan cause scan).Reads spelled continued) : (ofScan cause scan).Orderly :=
  orderly_ofScan reads.reaches

theorem orderly_literal {expected : List Char} (solid : Solid expected) :
    (literal expected).Orderly := by
  refine orderly_ofScan fun {text _ left} read => ?_
  obtain rfl := literal_eq_ok_iff.mp read
  exact .append solid left

theorem orderly_identifier : identifier.Orderly := identifier_reads.orderly

theorem orderly_reference : reference.Orderly :=
  (character_reads (by decide)).orderly.bind fun _ => orderly_identifier

/-- A name that fails after an at sign is noted behind it. -/
theorem orderly_zman : zman.Orderly where
  taken := zman_reads.reaches
  noted {text notes} failed := by
    unfold zman at failed
    split at failed
    · rename_i rest
      obtain ⟨some, places⟩ := orderly_identifier.noted failed
      have mark : Reaches ('@' :: rest) rest := .append (.mark (by decide)) rest
      exact ⟨some, fun note member => mark.trans (places note member)⟩
    · exact orderly_identifier.noted failed

/-- When a text is not taken whole, either its reading failed or some of it was left over. -/
theorem Orderly.whole {reader : Reader Value} (orderly : reader.Orderly) {notes : List Note}
    (failed : reader.whole text = .error notes) :
    notes ≠ [] ∧ ∀ note ∈ notes, Reaches text note.left := by
  unfold Reader.whole at failed
  split at failed
  · simp at failed
  · rename_i read
    obtain rfl := Except.error.inj failed
    exact ⟨by simp, by simpa using orderly.taken read⟩
  · rename_i inner
    obtain rfl := Except.error.inj failed
    exact orderly.noted inner

end Reader

namespace Form
open Reader

/-- A bracket or comma between gaps. -/
theorem orderly_mark {expected : Char} (outside : isBlank expected = false) (part : Expectation) :
    (expecting part (spaced (character expected))).Orderly :=
  (character_reads outside).orderly.spaced.expecting part

theorem orderly_opening : opening.Orderly := orderly_mark (by decide) _

theorem orderly_separator : separator.Orderly := orderly_mark (by decide) _

theorem orderly_closing : closing.Orderly := orderly_mark (by decide) _

theorem orderly_word {expected : String} (identifier : isIdentifier expected = true) :
    (spaced (word expected)).Orderly :=
  (word_reads identifier).orderly.spaced

/-- The endpoints of a custom day in their brackets. -/
def endpoints : Reader Day := do
  opening
  let start ← expecting .customStart (spaced reference)
  separator
  let finish ← expecting .customEnd (spaced reference)
  closing
  return .custom (some start) (some finish)

theorem orderly_endpoints : endpoints.Orderly :=
  orderly_opening.bind fun _ =>
    (orderly_reference.spaced.expecting _).bind fun _ =>
      orderly_separator.bind fun _ =>
        (orderly_reference.spaced.expecting _).bind fun _ =>
          orderly_closing.bind fun _ => orderly_pure _

theorem orderly_customDay : customDay.Orderly :=
  (orderly_word (by decide)).bind fun _ => orderly_endpoints

/-- Every form reads in an orderly way. -/
theorem orderly_reader (form : Form) : form.reader.Orderly := by
  cases form with
  | solar =>
      exact (orderly_word (by decide)).bind fun _ =>
        orderly_opening.bind fun _ =>
          (number_reads.orderly.spaced.expecting _).bind fun _ =>
            orderly_separator.bind fun _ =>
              (direction_reads.orderly.spaced.expecting _).bind fun _ =>
                orderly_closing.bind fun _ => orderly_pure _
  | proportional =>
      exact (orderly_word (by decide)).bind fun _ =>
        orderly_opening.bind fun _ =>
          (number_reads.orderly.spaced.expecting _).bind fun _ =>
            orderly_separator.bind fun _ =>
              ((orderly_customDay.either standardDay_reads.orderly.spaced).expecting _).bind fun _ =>
                orderly_closing.bind fun _ => orderly_pure _
  | offset =>
      have unit : Solid ['m', 'i', 'n'] := .of_run (by decide) (List.all_eq_true.mp rfl)
      exact orderly_zman.spaced.bind fun _ =>
        sign_reads.orderly.spaced.bind fun _ =>
          (minutes_reads.orderly.expecting _).bind fun _ =>
            ((orderly_literal unit).expecting _).bind fun _ => orderly_pure _
  | fixedZman => exact orderly_zman.spaced.bind fun _ => orderly_pure _

end Form

/-- One of several notes is the deepest. -/
theorem Note.exists_deepest? {notes : List Note} (nonempty : notes ≠ []) :
    ∃ note ∈ notes, deepest? notes = some note := by
  induction notes with
  | nil => exact absurd rfl nonempty
  | cons note notes ih =>
      cases found : deepest? notes with
      | none => exact ⟨note, List.mem_cons_self, by rw [deepest?, found]⟩
      | some best =>
          have inside : best ∈ notes := by
            cases notes with
            | nil => simp [deepest?] at found
            | cons first rest =>
                obtain ⟨other, member, same⟩ := ih (List.cons_ne_nil first rest)
                rwa [Option.some.inj (found.symm.trans same)]
          rw [deepest?, found]
          dsimp only
          split
          · exact ⟨note, List.mem_cons_self, rfl⟩
          · exact ⟨best, List.mem_cons_of_mem note inside, rfl⟩

/-- A form that does not take a text whole stops at a clean place of it. -/
theorem Form.exists_stop? {form : Form} (failed : form.read? text = none) :
    ∃ stop, form.stop? text = some stop ∧ Reaches text stop.left := by
  unfold read? at failed
  unfold stop?
  cases whole : form.reader.whole text with
  | ok formula =>
      rw [whole] at failed
      exact absurd failed (by simp [Except.toOption])
  | error notes =>
      obtain ⟨nonempty, places⟩ := form.orderly_reader.whole whole
      obtain ⟨note, member, deepest⟩ := Note.exists_deepest? nonempty
      refine ⟨⟨note.left, (notes.findSome? Note.part?).or note.character?⟩, ?_, places note member⟩
      simp only [Stop.ofNotes?, deepest, Option.map_some]

/-- The furthest of several stops is one of them. -/
theorem Stop.exists_furthest? {stops : List Stop} (nonempty : stops ≠ []) :
    ∃ stop ∈ stops, furthest? stops = some stop := by
  obtain ⟨first, others, rfl⟩ := List.exists_cons_of_ne_nil nonempty
  refine ⟨_, ?_, rfl⟩
  refine List.foldlRecOn others further List.mem_cons_self ?_
  intro best inside next member
  unfold further
  split
  · exact List.mem_cons_of_mem first member
  · exact inside

theorem Stop.length_further_le (best next : Stop) :
    (further best next).left.length ≤ best.left.length ∧
      (further best next).left.length ≤ next.left.length := by
  unfold further
  split <;> omega

/-- No stop has less text left than the furthest one. -/
theorem Stop.length_foldl_further_le (first : Stop) (others : List Stop) :
    ∀ stop ∈ first :: others, (others.foldl further first).left.length ≤ stop.left.length := by
  induction others generalizing first with
  | nil => simp
  | cons second others ih =>
      obtain ⟨one, two⟩ := length_further_le first second
      have least := ih (further first second)
      have both := least _ List.mem_cons_self
      intro stop member
      rcases List.mem_cons.mp member with rfl | member
      · exact Nat.le_trans both one
      · rcases List.mem_cons.mp member with rfl | member
        · exact Nat.le_trans both two
        · exact least stop (List.mem_cons_of_mem _ member)

theorem Stop.length_le_of_furthest? {stops : List Stop} {furthest stop : Stop}
    (found : furthest? stops = some furthest) (member : stop ∈ stops) :
    furthest.left.length ≤ stop.left.length := by
  obtain ⟨first, others, rfl⟩ := List.exists_cons_of_ne_nil (List.ne_nil_of_mem member)
  obtain rfl := Option.some.inj found
  exact length_foldl_further_le first others stop member

/-- When no form takes a text, there is a furthest stop of the forms at a clean place of it. -/
theorem Form.exists_furthestStop? (none : Formula.ofTrimmed? text = none) :
    ∃ stop, furthestStop? all text = some stop ∧ Reaches text stop.left := by
  have stopped := fun form : Form =>
    exists_stop? (List.findSome?_eq_none_iff.mp none form form.mem_all)
  have nonempty : (all.filterMap fun form => form.stop? text) ≠ [] := by
    obtain ⟨stop, found, -⟩ := stopped .solar
    exact List.ne_nil_of_mem (List.mem_filterMap.mpr ⟨.solar, mem_all .solar, found⟩)
  obtain ⟨stop, member, furthest⟩ := Stop.exists_furthest? nonempty
  obtain ⟨form, -, found⟩ := List.mem_filterMap.mp member
  obtain ⟨_, same, place⟩ := stopped form
  obtain rfl := Option.some.inj (found.symm.trans same)
  exact ⟨stop, furthest, place⟩

end Zmanim
