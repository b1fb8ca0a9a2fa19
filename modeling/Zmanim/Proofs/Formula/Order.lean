import Zmanim.Proofs.Diagnosis.Agreement
/-! The order in which forms are tried. -/

namespace Zmanim
open Text

namespace Form

variable {form other : Form} {text : List Char}

theorem unique_of_read? (read : (form.read? text).isSome = true)
    (again : (other.read? text).isSome = true) : form = other := by
  obtain ⟨formula, taken⟩ := Option.isSome_iff_exists.mp read
  obtain ⟨second, same⟩ := Option.isSome_iff_exists.mp again
  exact unique_of_reader (read?_eq_some_iff.mp taken) (read?_eq_some_iff.mp same)

end Form

namespace Formula

variable {forms : List Form} {text : List Char} {formula : Formula}

/-- The formula of a text when the forms are tried in some order. -/
def readIn (forms : List Form) (text : String) : Except Rejection Formula :=
  match trim text.toList with
  | [] => .error .empty
  | first :: rest =>
      match forms.findSome? fun form => form.read? (first :: rest) with
      | some formula => .ok formula
      | none => .error (.classified (first :: rest) (Form.furthestStop? forms (first :: rest)))

theorem readIn_all (text : String) : readIn Form.all text = read text := by
  unfold readIn read ofTrimmed? Rejection.ofTrimmed
  rfl

/-- Since no text has two forms, it does not matter which form is found first. -/
theorem findSome?_read?_eq_some_iff :
    (forms.findSome? fun form => form.read? text) = some formula ↔
      ∃ form ∈ forms, form.read? text = some formula := by
  constructor
  · intro found
    exact List.exists_of_findSome?_eq_some found
  · rintro ⟨form, member, read⟩
    have some : (forms.findSome? fun form => form.read? text).isSome = true :=
      List.findSome?_isSome_iff.mpr ⟨form, member, by rw [read]; rfl⟩
    obtain ⟨first, found⟩ := Option.isSome_iff_exists.mp some
    obtain ⟨other, -, taken⟩ := List.exists_of_findSome?_eq_some found
    obtain rfl : other = form := Form.unique_of_read? (by rw [taken]; rfl) (by rw [read]; rfl)
    rw [found, ← taken, read]

/-- Forms in another order find the same formula. -/
theorem findSome?_perm (perm : forms.Perm Form.all) :
    (forms.findSome? fun form => form.read? text) = ofTrimmed? text := by
  refine Option.ext fun formula => ?_
  rw [ofTrimmed?, findSome?_read?_eq_some_iff, findSome?_read?_eq_some_iff]
  simp only [perm.mem_iff]

/-- No text has two forms. In any order of the forms the same texts are read as the same formulas,
and any other text is rejected for the same reason. -/
theorem readIn_of_perm (text : String) :
    (∀ source (form other : Form), (form.read? source).isSome = true →
      (other.read? source).isSome = true → form = other) ∧
    ∀ forms : List Form, forms.Perm Form.all →
      (∀ formula, readIn forms text = .ok formula ↔ read text = .ok formula) ∧
      ∀ rejection, read text = .error rejection →
        ∃ other, readIn forms text = .error other ∧ other.reason = rejection.reason := by
  refine ⟨fun _ _ _ => Form.unique_of_read?, fun forms perm => ?_⟩
  rw [← readIn_all]
  unfold readIn
  cases trim text.toList with
  | nil => exact ⟨fun _ => Iff.rfl, fun rejection failed => ⟨rejection, failed, rfl⟩⟩
  | cons first rest =>
      dsimp only
      rw [findSome?_perm perm, findSome?_perm (.refl Form.all)]
      cases ofTrimmed? (first :: rest) with
      | some formula => exact ⟨fun _ => Iff.rfl, nofun⟩
      | none =>
          refine ⟨fun formula => by simp, ?_⟩
          rintro _ ⟨⟩
          exact ⟨_, rfl, by rw [(Rejection.reason_classified _ _).1,
            (Rejection.reason_classified _ _).1]⟩

/-- A time may be named like a function, also when names are tried first. -/
theorem readIn_of_reverse :
    Form.all.reverse.Perm Form.all ∧
      readIn Form.all.reverse "solar - 18min" = .ok (.offset "solar" .before 18) :=
  ⟨List.reverse_perm _, (((readIn_of_perm "solar - 18min").2 _ (List.reverse_perm _)).1 _).mpr rfl⟩

end Formula

end Zmanim
