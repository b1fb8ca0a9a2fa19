import Mathlib.Tactic.TFAE
import Zmanim.Proofs.Formula.RoundTrip
import Zmanim.Proofs.Token.Sequence
/-! Names as formulas. -/

namespace Zmanim
open Text

variable {name source : String}

/-- A text is a single name exactly when it has the shape of a name. -/
theorem tokens_eq_name_iff : tokens name.toList = [.name name] ↔ NameShaped name := by
  constructor
  · intro single
    have member : .name name ∈ tokens name.toList := by simp [single]
    exact legible_of_mem_tokens member
  · exact tokens_name

namespace Formula

/-- A text is read as a named time exactly when it spells an identifier, with or without an at sign,
between blanks. -/
theorem read_eq_fixedZman_iff :
    Formula.read source = .ok (.fixedZman name) ↔
      isIdentifier name = true ∧ trim source.toList ∈ nameSpellings name := by
  constructor
  · intro read
    obtain ⟨parts, spelled, laid⟩ := written_of_read read
    cases spelled with
    | fixedZman identifier spells => exact ⟨identifier, laid.eq_last ▸ spells⟩
  · rintro ⟨identifier, spells⟩
    rw [read_eq_ok_iff, ofTrimmed?_eq_some_iff_written (trimmed_trim source.toList)]
    exact ⟨_, .fixedZman identifier spells, .last _⟩

/-- A spelling of an identifier is read as the identifier. -/
theorem read_of_mem_nameSpellings (identifier : isIdentifier name = true)
    (spells : source.toList ∈ nameSpellings name) :
    Formula.read source = .ok (.fixedZman name) := by
  have solid := Solid.of_mem_nameSpellings identifier spells
  have trimmed : Trimmed source.toList := ⟨solid.stops, solid.reverse.stops⟩
  refine read_eq_fixedZman_iff.mpr ⟨identifier, ?_⟩
  rwa [trimmed.trim_eq]

/-- All ways to tell an identifier tell the same: its characters, the formula that it is by itself or
behind an at sign, and its tokens. -/
theorem isIdentifier_tfae (name : String) :
    List.TFAE [isIdentifier name = true,
      Formula.read name = .ok (.fixedZman name),
      name ≠ "if" ∧ name ≠ "else" ∧ tokens name.toList = [.name name],
      Formula.read ("@" ++ name) = .ok (.fixedZman name)] := by
  have keywords : name ∉ keywords ↔ name ≠ "if" ∧ name ≠ "else" := by simp [keywords]
  tfae_have 1 → 2 := fun identifier => read_of_mem_nameSpellings identifier (by simp [nameSpellings])
  tfae_have 2 → 1 := fun read => (read_eq_fixedZman_iff.mp read).1
  tfae_have 1 ↔ 3 := by
    rw [isIdentifier_iff_nameShaped, keywords, tokens_eq_name_iff]
    tauto
  tfae_have 1 → 4 := fun identifier => read_of_mem_nameSpellings identifier (by simp [nameSpellings])
  tfae_have 4 → 1 := fun read => (read_eq_fixedZman_iff.mp read).1
  tfae_finish

/-- A letter outside ASCII starts no name, and a blank at the end is trimmed but belongs to no name. -/
example : isIdentifier "é" = false ∧ Formula.read "dawn " = .ok (.fixedZman "dawn") ∧
    isIdentifier "dawn " = false := ⟨by decide, rfl, by decide⟩

end Formula

end Zmanim
