import Zmanim.Text.Blank
import Zmanim.Text.Name
/-! Runs of characters. -/

namespace Zmanim.Text

variable {kind : Char → Bool} {text run left : List Char}

/-- A run has characters of one kind alone; it may be empty. -/
def Run (kind : Char → Bool) (text : List Char) : Prop := ∀ character ∈ text, kind character = true

/-- A text stops a run when it does not begin with a character of the same kind. -/
def Stops (kind : Char → Bool) (text : List Char) : Prop :=
  ∀ character ∈ text.head?, kind character = false

@[simp] theorem run_nil : Run kind [] := by simp [Run]

@[simp] theorem run_cons {character : Char} :
    Run kind (character :: text) ↔ kind character = true ∧ Run kind text := by
  simp [Run]

@[simp] theorem run_append : Run kind (run ++ left) ↔ Run kind run ∧ Run kind left := by
  simp [Run, or_imp, forall_and]

theorem Run.mono {other : Char → Bool} (same : Run kind text)
    (within : ∀ character, kind character = true → other character = true) : Run other text :=
  fun character member => within character (same character member)

theorem Run.reverse (same : Run kind text) : Run kind text.reverse :=
  fun character member => same character (List.mem_reverse.mp member)

@[simp] theorem stops_nil : Stops kind [] := by simp [Stops]

@[simp] theorem stops_cons {character : Char} :
    Stops kind (character :: text) ↔ kind character = false := by
  simp [Stops]

theorem Stops.anti {other : Char → Bool} (stops : Stops kind text)
    (within : ∀ character, other character = true → kind character = true) : Stops other text := by
  intro character first
  cases same : other character with
  | false => rfl
  | true => exact absurd ((within character same).symm.trans (stops character first)) (by decide)

theorem Stops.append (nonempty : text ≠ []) (stops : Stops kind text) :
    Stops kind (text ++ left) := by
  cases text with
  | nil => exact absurd rfl nonempty
  | cons first rest => simpa using stops

theorem Stops.of_append (stops : Stops kind (text ++ left)) : Stops kind text := by
  cases text with
  | nil => exact stops_nil
  | cons first rest => simpa using stops

/-- A run that stops its own kind has no characters. -/
theorem Run.eq_nil (same : Run kind run) (stops : Stops kind run) : run = [] := by
  cases run with
  | nil => rfl
  | cons first rest =>
      have inside : kind first = true := same first List.mem_cons_self
      have outside : kind first = false := stops_cons.mp stops
      exact absurd (inside.symm.trans outside) (by decide)

theorem Run.takeWhile_append (same : Run kind run) (stops : Stops kind left) :
    (run ++ left).takeWhile kind = run := by
  rw [List.takeWhile_append_of_pos same]
  cases left with
  | nil => simp
  | cons first rest => simp [stops_cons.mp stops]

theorem Run.dropWhile_append (same : Run kind run) (stops : Stops kind left) :
    (run ++ left).dropWhile kind = left := by
  rw [List.dropWhile_append_of_pos same]
  cases left with
  | nil => simp
  | cons first rest => simp [stops_cons.mp stops]

/-- A run is taken whole at the end of a text. -/
theorem Run.takeWhile_eq (same : Run kind run) : run.takeWhile kind = run := by
  have whole := same.takeWhile_append stops_nil
  rwa [List.append_nil] at whole

/-- The longest run at the start of a text does not change when what is added stops it. -/
theorem Stops.takeWhile_append (stops : Stops kind left) :
    (text ++ left).takeWhile kind = text.takeWhile kind := by
  induction text with
  | nil => simpa using run_nil.takeWhile_append stops
  | cons first rest ih => simp [List.takeWhile_cons, ih]

theorem Stops.dropWhile_append (stops : Stops kind left) :
    (text ++ left).dropWhile kind = text.dropWhile kind ++ left := by
  induction text with
  | nil => simpa using run_nil.dropWhile_append stops
  | cons first rest ih =>
      simp only [List.cons_append, List.dropWhile_cons, ih]
      split <;> rfl

theorem run_takeWhile (text : List Char) : Run kind (text.takeWhile kind) := by
  intro character member
  exact List.all_eq_true.mp List.all_takeWhile character member

theorem stops_dropWhile (text : List Char) : Stops kind (text.dropWhile kind) := by
  intro character first
  have outside := List.head?_dropWhile_not kind text
  rw [Option.mem_def.mp first] at outside
  exact outside

/-- A space is a gap. -/
theorem run_space : Run isGap [' '] := run_cons.mpr ⟨rfl, run_nil⟩

/-- What stops both a gap and another run stops the run also behind a gap. -/
theorem Stops.behind_gap {gap : List Char} (blank : Run isGap gap)
    (apart : ∀ character, isGap character = true → kind character = false)
    (stops : Stops kind left) : Stops kind (gap ++ left) := by
  cases gap with
  | nil => exact stops
  | cons first rest => simpa using apart first (blank first List.mem_cons_self)

theorem isNamePart_of_isNameStart {character : Char} (start : isNameStart character = true) :
    isNamePart character = true := by
  simp only [isNameStart, isNamePart, Char.isAlphanum, Bool.or_eq_true] at start ⊢
  exact start.imp_right Or.inl

theorem isNamePart_of_isDigit {character : Char} (digit : character.isDigit = true) :
    isNamePart character = true := by
  simp [isNamePart, Char.isAlphanum, digit]

theorem isNamePart_eq (character : Char) :
    isNamePart character = (isNameStart character || character.isDigit) := by
  simp [isNamePart, isNameStart, Char.isAlphanum, Bool.or_assoc]

theorem toNat_of_isNameStart {character : Char} (start : isNameStart character = true) :
    character = '_' ∨ (65 ≤ character.toNat ∧ character.toNat ≤ 90) ∨
      (97 ≤ character.toNat ∧ character.toNat ≤ 122) := by
  delta isNameStart Char.isAlpha Char.isUpper Char.isLower at start
  simp only [Bool.or_eq_true, Bool.and_eq_true, beq_iff_eq, decide_eq_true_eq, ge_iff_le,
    UInt32.le_iff_toNat_le] at start
  exact start

theorem toNat_of_isDigit {character : Char} (digit : character.isDigit = true) :
    48 ≤ character.toNat ∧ character.toNat ≤ 57 := by
  delta Char.isDigit at digit
  simp only [Bool.and_eq_true, decide_eq_true_eq, ge_iff_le, UInt32.le_iff_toNat_le] at digit
  exact digit

/-- No name begins with a digit. -/
theorem isNameStart_eq_false_of_isDigit {character : Char} (digit : character.isDigit = true) :
    isNameStart character = false := by
  have inside := toNat_of_isDigit digit
  refine Bool.eq_false_iff.mpr fun start => ?_
  rcases toNat_of_isNameStart start with rfl | bounds
  · exact absurd inside (by decide)
  · omega

/-- Names have no blanks inside. -/
theorem isBlank_eq_false_of_isNamePart {character : Char} (part : isNamePart character = true) :
    isBlank character = false := by
  rw [isNamePart_eq, Bool.or_eq_true] at part
  rcases part with start | digit
  · rcases toNat_of_isNameStart start with rfl | letter
    · decide
    · simp [isBlank, blankRanges]
      omega
  · have bounds := toNat_of_isDigit digit
    simp [isBlank, blankRanges]
    omega

theorem isNamePart_eq_false_of_isGap {character : Char} (gap : isGap character = true) :
    isNamePart character = false := by
  cases part : isNamePart character with
  | false => rfl
  | true =>
      have blank := isBlank_of_isGap gap
      rw [isBlank_eq_false_of_isNamePart part] at blank
      exact absurd blank (by decide)

theorem isGap_eq_false_of_isNamePart {character : Char} (part : isNamePart character = true) :
    isGap character = false :=
  Bool.eq_false_iff.mpr fun gap => by simp [isNamePart_eq_false_of_isGap gap] at part

theorem isDigit_eq_false_of_isGap {character : Char} (gap : isGap character = true) :
    character.isDigit = false := by
  cases digit : character.isDigit with
  | false => rfl
  | true =>
      have outside := isNamePart_eq_false_of_isGap gap
      rw [isNamePart_of_isDigit digit] at outside
      exact absurd outside (by decide)

end Zmanim.Text
