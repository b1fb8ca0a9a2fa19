import Zmanim.Proofs.Number.Numeral
import Zmanim.Proofs.Text.Identifier
import Zmanim.Proofs.Text.Trim
/-! Layouts of parts. -/

namespace Zmanim
open Text

variable {part text left : List Char} {parts others : List (List Char)}

/-- A solid part has characters, and no blank is among them. -/
structure Solid (part : List Char) : Prop where
  nonempty : part ≠ []
  blankless : ∀ character ∈ part, isBlank character = false

namespace Solid

theorem stops (solid : Solid part) : Stops isBlank part :=
  fun character first => solid.blankless character (List.mem_of_mem_head? first)

/-- No gap begins with a solid part. -/
theorem stops_append (solid : Solid part) : Stops isGap (part ++ left) :=
  solid.stops.isGap_of_isBlank.append solid.nonempty

theorem reverse (solid : Solid part) : Solid part.reverse :=
  ⟨by simpa using solid.nonempty, fun character member =>
    solid.blankless character (List.mem_reverse.mp member)⟩

theorem cons {character : Char} (outside : isBlank character = false) (solid : Solid part) :
    Solid (character :: part) :=
  ⟨by simp, by simpa [outside] using solid.blankless⟩

theorem append {other : List Char} (first : Solid part) (second : Solid other) :
    Solid (part ++ other) := by
  refine ⟨by simp [first.nonempty], fun character member => ?_⟩
  rcases List.mem_append.mp member with inside | inside
  · exact first.blankless character inside
  · exact second.blankless character inside

/-- A single character other than a blank is solid. -/
theorem mark {character : Char} (outside : isBlank character = false) : Solid [character] :=
  ⟨by simp, by simpa using outside⟩

theorem of_run (nonempty : part ≠ []) (run : Run isNamePart part) : Solid part :=
  ⟨nonempty, fun character member => isBlank_eq_false_of_isNamePart (run character member)⟩

theorem of_digits (nonempty : part ≠ []) (digits : Run Char.isDigit part) : Solid part :=
  of_run nonempty (digits.mono fun _ => isNamePart_of_isDigit)

theorem of_nameShaped {name : String} (shaped : NameShaped name) : Solid name.toList :=
  of_run shaped.ne_nil shaped.run

theorem of_isIdentifier {name : String} (identifier : isIdentifier name = true) :
    Solid name.toList :=
  of_nameShaped (nameShaped_of_isIdentifier identifier)

theorem of_wellFormed {numeral : Numeral} (wellFormed : numeral.WellFormed) :
    Solid numeral.spelling := by
  have whole := of_digits wellFormed.nonempty wellFormed.whole
  unfold Numeral.spelling
  split
  · exact whole
  · rename_i some
    exact whole.append ((of_digits some wellFormed.fraction).cons (by decide))

/-- A text between two solid parts has no blank at either end. -/
theorem trimmed {other middle : List Char} (first : Solid part) (last : Solid other) :
    Trimmed (part ++ (middle ++ other)) := by
  constructor
  · exact first.stops.append first.nonempty
  · rw [List.reverse_append, List.reverse_append, List.append_assoc]
    exact last.reverse.stops.append last.reverse.nonempty

/-- Blanks around a solid part are trimmed. -/
theorem trim_append {before after : List Char} (solid : Solid part) (front : Run isBlank before)
    (back : Run isBlank after) : trim (before ++ (part ++ after)) = part :=
  Text.trim_append front back ⟨solid.stops, solid.reverse.stops⟩ solid.nonempty

end Solid

/-- Parts are laid out in their order, with a gap between each two of them that may be empty. -/
inductive Laid : List (List Char) → List Char → Prop where
  | last (part : List Char) : Laid [part] part
  | next (part gap : List Char) {parts : List (List Char)} {rest : List Char} :
      Run isGap gap → Laid parts rest → Laid (part :: parts) (part ++ (gap ++ rest))

namespace Laid

/-- A part may stand right before the next one. -/
theorem adjoin (part : List Char) (laid : Laid parts text) :
    Laid (part :: parts) (part ++ text) :=
  next part [] run_nil laid

/-- A part may stand one space before the next one. -/
theorem spaced (part : List Char) (laid : Laid parts text) :
    Laid (part :: parts) (part ++ ' ' :: text) :=
  next part [' '] run_space laid

theorem ne_nil (laid : Laid parts text) : parts ≠ [] := by
  cases laid <;> simp

theorem append {gap rest : List Char} (first : Laid parts text) (blank : Run isGap gap)
    (second : Laid others rest) : Laid (parts ++ others) (text ++ (gap ++ rest)) := by
  induction first with
  | last part => exact next part gap blank second
  | next part inner same laid ih =>
      simp only [List.append_assoc] at ih ⊢
      exact next part inner same ih

theorem exists_next {next : List Char} (laid : Laid (part :: next :: parts) text) :
    ∃ gap rest, Run isGap gap ∧ Laid (next :: parts) rest ∧ text = part ++ (gap ++ rest) := by
  cases laid with
  | next _ gap blank laid => exact ⟨gap, _, blank, laid, rfl⟩

theorem exists_first (laid : Laid (part :: parts) text) : ∃ rest, text = part ++ rest := by
  cases laid with
  | last => exact ⟨[], (List.append_nil part).symm⟩
  | next _ gap => exact ⟨gap ++ _, rfl⟩

theorem eq_last (laid : Laid [part] text) : text = part := by
  cases laid with
  | last => rfl
  | next _ _ _ laid => exact absurd rfl laid.ne_nil

/-- A layout ends with its last part. -/
theorem exists_append (laid : Laid parts text) :
    ∀ last ∈ parts.getLast?, ∃ before, text = before ++ last := by
  induction laid with
  | last part =>
      intro last found
      obtain rfl : part = last := by simpa using found
      exact ⟨[], rfl⟩
  | next part gap blank laid ih =>
      intro last found
      obtain ⟨second, others, rfl⟩ := List.exists_cons_of_ne_nil laid.ne_nil
      rw [List.getLast?_cons_cons] at found
      obtain ⟨before, rfl⟩ := ih last found
      exact ⟨part ++ (gap ++ before), by simp only [List.append_assoc]⟩

theorem text_ne_nil (laid : Laid parts text) (solid : ∀ part ∈ parts, Solid part) : text ≠ [] := by
  cases laid with
  | last => exact (solid text List.mem_cons_self).nonempty
  | next part gap =>
      have first := (solid part List.mem_cons_self).nonempty
      simp [first]

/-- A layout of solid parts has no blank at either end. -/
theorem trimmed (laid : Laid parts text) (solid : ∀ part ∈ parts, Solid part) : Trimmed text := by
  constructor
  · cases laid with
    | last => exact (solid text List.mem_cons_self).stops
    | next part gap =>
        have first := solid part List.mem_cons_self
        exact first.stops.append first.nonempty
  · obtain ⟨last, found⟩ : ∃ last, parts.getLast? = some last :=
      ⟨_, List.getLast?_eq_some_getLast laid.ne_nil⟩
    obtain ⟨before, rfl⟩ := laid.exists_append last found
    have final := (solid last (List.mem_of_getLast? found)).reverse
    rw [List.reverse_append]
    exact final.stops.append final.nonempty

end Laid

/-- Solid parts are spread over a text up to what is left of it, with gaps around each of them. -/
inductive Spread : List (List Char) → List Char → List Char → Prop where
  | done (gap left : List Char) : Run isGap gap → Spread [] (gap ++ left) left
  | next (gap part : List Char) {parts : List (List Char)} {rest left : List Char} :
      Run isGap gap → Solid part → Spread parts rest left →
      Spread (part :: parts) (gap ++ (part ++ rest)) left

namespace Spread

theorem behind_gap {gap : List Char} (blank : Run isGap gap) (spread : Spread parts text left) :
    Spread parts (gap ++ text) left := by
  cases spread with
  | done inner left same =>
      rw [← List.append_assoc]
      exact done _ left (run_append.mpr ⟨blank, same⟩)
  | next inner part same solid rest =>
      rw [← List.append_assoc]
      exact next _ part (run_append.mpr ⟨blank, same⟩) solid rest

theorem append {middle : List Char} (first : Spread parts text middle)
    (second : Spread others middle left) : Spread (parts ++ others) text left := by
  induction first with
  | done gap middle blank => exact second.behind_gap blank
  | next gap part blank solid rest ih => exact next gap part blank solid (ih second)

/-- The same parts are spread over what follows the gap that a text begins with. -/
theorem dropWhile (spread : Spread parts text left) (stops : Stops isGap left) :
    Spread parts (text.dropWhile isGap) left := by
  cases spread with
  | done gap left blank =>
      rw [blank.dropWhile_append stops]
      exact done [] left run_nil
  | next gap part blank solid rest =>
      rw [blank.dropWhile_append solid.stops_append]
      exact next [] part run_nil solid rest

theorem eq_left (spread : Spread [] text left) (stops : Stops isGap text) : text = left := by
  cases spread with
  | done gap left blank => rw [blank.eq_nil stops.of_append, List.nil_append]

/-- A part that a text begins with is not looked for behind a gap. -/
theorem of_append (spread : Spread (part :: parts) (part ++ text) left) (solid : Solid part) :
    Spread parts text left := by
  generalize shape : part ++ text = whole at spread
  cases spread with
  | next gap _ blank _ rest =>
      have start : Stops isGap (part ++ text) := solid.stops_append
      rw [shape] at start
      have none := blank.eq_nil start.of_append
      rw [none, List.nil_append, List.append_cancel_left_eq] at shape
      rwa [shape]

theorem exists_append (spread : Spread (part :: parts) text left) (stops : Stops isGap text) :
    ∃ rest, text = part ++ rest := by
  cases spread with
  | next gap _ blank _ rest =>
      have none := blank.eq_nil stops.of_append
      exact ⟨_, by rw [none, List.nil_append]⟩

/-- A text begins as its parts do, or else with a gap. -/
theorem stops {kind : Char → Bool} (spread : Spread parts text left)
    (apart : ∀ character, isGap character = true → kind character = false)
    (first : Stops kind (parts.flatten ++ left)) : Stops kind text := by
  cases spread with
  | done gap left blank => exact first.behind_gap blank apart
  | next gap part blank solid rest =>
      refine Stops.behind_gap blank apart ?_
      obtain ⟨start, others, rfl⟩ := List.exists_cons_of_ne_nil solid.nonempty
      simpa using first

/-- Solid parts that are laid out are spread over the whole text. -/
theorem of_laid (laid : Laid parts text) (solid : ∀ part ∈ parts, Solid part) :
    Spread parts text [] := by
  induction laid with
  | last part =>
      simpa using next [] part run_nil (solid part List.mem_cons_self) (done [] [] run_nil)
  | next part gap blank laid ih =>
      have rest := ih fun each member => solid each (List.mem_cons_of_mem part member)
      exact next [] part run_nil (solid part List.mem_cons_self) (rest.behind_gap blank)

/-- Parts that are spread over a whole text are laid out behind its first gap. -/
theorem exists_laid (spread : Spread parts text left) (whole : left = []) (some : parts ≠ [])
    (last : Stops isGap text.reverse) :
    ∃ gap rest, Run isGap gap ∧ text = gap ++ rest ∧ Laid parts rest := by
  induction spread with
  | done => exact absurd rfl some
  | @next gap part parts rest left blank solid spread ih =>
      refine ⟨gap, part ++ rest, blank, rfl, ?_⟩
      have final : Stops isGap rest.reverse := by
        rw [List.reverse_append, List.reverse_append, List.append_assoc] at last
        exact last.of_append
      cases spread with
      | done inner left same =>
          subst whole
          rw [List.append_nil] at final ⊢
          have none := same.reverse.eq_nil final
          rw [List.reverse_eq_nil_iff.mp none, List.append_nil]
          exact .last part
      | next inner other same spread =>
          obtain ⟨between, others, blank, shape, laid⟩ := ih whole (by simp) final
          rw [shape]
          exact .next part between blank laid

/-- Parts that are spread over a trimmed text are laid out in it. -/
theorem laid (spread : Spread parts text []) (some : parts ≠ []) (trimmed : Trimmed text) :
    Laid parts text := by
  obtain ⟨gap, rest, blank, rfl, laid⟩ :=
    spread.exists_laid rfl some trimmed.last.isGap_of_isBlank
  have none := blank.eq_nil trimmed.first.isGap_of_isBlank.of_append
  rwa [none, List.nil_append]

end Spread

end Zmanim
