import Zmanim.Proofs.Diagnosis.Marker
/-! Leftmost places among tokens. -/

namespace Zmanim

variable {holds : PlacedToken → List PlacedToken → Prop} {tokens rest : List PlacedToken}
  {first placed : PlacedToken}

/-- The leftmost place where something holds: all other such places are further on. -/
structure Leftmost (holds : PlacedToken → List PlacedToken → Prop) (tokens : List PlacedToken)
    (placed : PlacedToken) (rest : List PlacedToken) : Prop where
  within : placed :: rest <:+ tokens
  here : holds placed rest
  first : ∀ other more, other :: more <:+ tokens → holds other more →
    other :: more <:+ placed :: rest

/-- Something holds at no place. -/
def Nowhere (holds : PlacedToken → List PlacedToken → Prop) (tokens : List PlacedToken) : Prop :=
  ∀ placed rest, placed :: rest <:+ tokens → ¬ holds placed rest

theorem Leftmost.head (here : holds placed rest) :
    Leftmost holds (placed :: rest) placed rest where
  within := List.suffix_rfl
  here := here
  first _ _ within _ := within

theorem Leftmost.cons (outside : ¬ holds first tokens) (leftmost : Leftmost holds tokens placed rest) :
    Leftmost holds (first :: tokens) placed rest where
  within := leftmost.within.trans (List.suffix_cons first tokens)
  here := leftmost.here
  first other more within there := by
    rcases List.suffix_cons_iff.mp within with same | further
    · obtain ⟨rfl, rfl⟩ := List.cons.inj same
      exact absurd there outside
    · exact leftmost.first other more further there

@[simp] theorem nowhere_nil : Nowhere holds [] := by
  intro placed rest within
  simp at within

theorem nowhere_cons_iff :
    Nowhere holds (first :: tokens) ↔ ¬ holds first tokens ∧ Nowhere holds tokens := by
  have somewhere := @Finding.exists_suffix_cons_iff tokens holds first
  simpa only [Nowhere, not_exists, not_and, not_or] using not_congr somewhere

namespace Finding

variable {look : PlacedToken → List PlacedToken → Option Finding}
  {evidence : PlacedToken → List PlacedToken → Finding → Prop} {finding : Finding}

/-- There is some evidence at a place. -/
def Evident (evidence : PlacedToken → List PlacedToken → Finding → Prop) (placed : PlacedToken)
    (rest : List PlacedToken) : Prop :=
  ∃ finding, evidence placed rest finding

/-- The finding at the leftmost place with some evidence. -/
def Earliest (evidence : PlacedToken → List PlacedToken → Finding → Prop)
    (tokens : List PlacedToken) (finding : Finding) : Prop :=
  ∃ placed rest, Leftmost (Evident evidence) tokens placed rest ∧ evidence placed rest finding

theorem Earliest.exists_evidence (earliest : Earliest evidence tokens finding) :
    ∃ placed rest, placed :: rest <:+ tokens ∧ evidence placed rest finding := by
  obtain ⟨placed, rest, leftmost, shown⟩ := earliest
  exact ⟨placed, rest, leftmost.within, shown⟩

theorem Earliest.not_nowhere (earliest : Earliest evidence tokens finding) :
    ¬ Nowhere (Evident evidence) tokens := by
  obtain ⟨placed, rest, leftmost, -⟩ := earliest
  exact fun nowhere => nowhere placed rest leftmost.within leftmost.here

/-- A search looks for evidence from left to right. -/
structure Searches (find : List PlacedToken → Option Finding)
    (evidence : PlacedToken → List PlacedToken → Finding → Prop) : Prop where
  none_iff : ∀ tokens, find tokens = none ↔ Nowhere (Evident evidence) tokens
  earliest : ∀ tokens finding, find tokens = some finding → Earliest evidence tokens finding

/-- What is found first by looks that see the evidence is found at the leftmost place. -/
theorem searches_first?
    (sees : ∀ placed rest finding, look placed rest = some finding ↔ evidence placed rest finding) :
    Searches (first? look) evidence := by
  have unseen (placed : PlacedToken) (rest : List PlacedToken) :
      look placed rest = none ↔ ¬ Evident evidence placed rest := by
    simp only [Option.eq_none_iff_forall_ne_some, ne_eq, sees, Evident, not_exists]
  constructor
  · intro tokens
    induction tokens with
    | nil => exact iff_of_true rfl nowhere_nil
    | cons first others ih =>
        rw [first?, Option.or_eq_none_iff, unseen, ih, nowhere_cons_iff]
  · intro tokens finding found
    induction tokens with
    | nil => simp [first?] at found
    | cons first others ih =>
        rcases Option.or_eq_some_iff.mp found with here | ⟨nothing, further⟩
        · have shown := (sees _ _ _).mp here
          exact ⟨first, others, .head ⟨finding, shown⟩, shown⟩
        · obtain ⟨placed, rest, leftmost, shown⟩ := ih further
          exact ⟨placed, rest, leftmost.cons ((unseen _ _).mp nothing), shown⟩

end Finding

end Zmanim
