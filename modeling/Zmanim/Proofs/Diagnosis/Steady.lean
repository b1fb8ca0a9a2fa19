import Zmanim.Proofs.Diagnosis.Agreement
import Zmanim.Proofs.Rejection.Excerpt
/-! Steady searches. -/

namespace Zmanim
open Text

namespace Finding

variable {find others : List PlacedToken → Option Finding}
  {look : PlacedToken → List PlacedToken → Option Finding} {tokens rest front back : List PlacedToken}
  {placed last : PlacedToken} {character : Char} {origin : Position}

/-- Where a finding is when the text begins at an origin. -/
def shift (origin : Position) (finding : Finding) : Finding :=
  { finding with blamed := finding.blamed.shift origin }

/-- A search is steady when it ignores a character outside the alphabet before or behind the tokens,
and finds in shifted tokens what it finds in the tokens, shifted. -/
structure Steady (find : List PlacedToken → Option Finding) : Prop where
  front : ∀ {placed character} tokens, placed.token = .other character →
    find (placed :: tokens) = find tokens
  back : ∀ {placed character} tokens, placed.token = .other character →
    find (tokens ++ [placed]) = find tokens
  shift : ∀ origin tokens,
    find (tokens.map (.shift origin)) = (find tokens).map (.shift origin)

/-- A look is steady when it sees nothing at a character outside the alphabet, ignores one behind the
tokens, and sees at shifted tokens what it sees at the tokens, shifted. -/
structure SteadyLook (look : PlacedToken → List PlacedToken → Option Finding) : Prop where
  blind : ∀ {placed character} rest, placed.token = .other character → look placed rest = none
  back : ∀ {last character} placed rest, last.token = .other character →
    look placed (rest ++ [last]) = look placed rest
  shift : ∀ origin placed rest,
    look (placed.shift origin) (rest.map (.shift origin)) =
      (look placed rest).map (.shift origin)

/-- What is found first by a steady look is found by a steady search. -/
theorem SteadyLook.first? (steady : SteadyLook look) : Steady (first? look) where
  front tokens other := by rw [Finding.first?, steady.blind tokens other, Option.none_or]
  back tokens other := by
    induction tokens with
    | nil => simp [Finding.first?, steady.blind [] other]
    | cons next rest ih =>
        rw [List.cons_append, Finding.first?, Finding.first?, steady.back next rest other, ih]
  shift origin tokens := by
    induction tokens with
    | nil => rfl
    | cons next rest ih =>
        rw [List.map_cons, Finding.first?, Finding.first?, steady.shift, ih, Option.map_or]

theorem Steady.or (first : Steady find) (second : Steady others) :
    Steady fun tokens => (find tokens).or (others tokens) where
  front tokens other := by rw [first.front tokens other, second.front tokens other]
  back tokens other := by rw [first.back tokens other, second.back tokens other]
  shift origin tokens := by rw [first.shift, second.shift, Option.map_or]

@[simp] theorem opensCall_shift : opensCall (rest.map (.shift origin)) = opensCall rest := by
  cases rest <;> rfl

/-- Only a round bracket opens a call. -/
theorem opensCall_concat (other : last.token = .other character) :
    opensCall (rest ++ [last]) = opensCall rest := by
  cases rest <;> simp [opensCall, other]

theorem steady_conditional? : Steady conditional? :=
  SteadyLook.first?
    { blind := fun rest other => by simp [other]
      back := fun placed rest other => by rw [opensCall_concat other]
      shift := fun origin placed rest => by
        rw [PlacedToken.token_shift, opensCall_shift]
        split <;> rfl }

theorem steady_midpoint? : Steady midpoint? :=
  SteadyLook.first?
    { blind := fun rest other => by simp [other]
      back := fun placed rest other => by rw [opensCall_concat other]
      shift := fun origin placed rest => by
        rw [PlacedToken.token_shift, opensCall_shift]
        split <;> rfl }

theorem steady_call? : Steady call? :=
  SteadyLook.first?
    { blind := fun rest other => by simp [other]
      back := fun placed rest other => by rw [opensCall_concat other]
      shift := fun origin placed rest => by
        rw [PlacedToken.token_shift, opensCall_shift]
        split
        · split <;> rfl
        · rfl }

theorem steady_engineWord? : Steady engineWord? :=
  SteadyLook.first?
    { blind := fun rest other => by simp [other]
      back := fun placed rest other => rfl
      shift := fun origin placed rest => by
        rw [PlacedToken.token_shift]
        split
        · split
          · rfl
          · split <;> rfl
        · rfl }

theorem steady_signedAngle? : Steady signedAngle? :=
  SteadyLook.first?
    { blind := fun rest other => by simp [other]
      back := fun placed rest other => by
        cases named : placed.token with
        | name name => rcases rest with _ | ⟨bracket, _ | ⟨sign, rest⟩⟩ <;> simp [other]
        | _ => rfl
      shift := fun origin placed rest => by
        simp only [PlacedToken.token_shift]
        cases named : placed.token with
        | name name =>
            rcases rest with _ | ⟨bracket, _ | ⟨sign, rest⟩⟩
            · rfl
            · rfl
            · simp only [List.map_cons, PlacedToken.token_shift]
              split
              · split <;> rfl
              · rfl
        | _ => rfl }

theorem steady_durationUnit? : Steady durationUnit? :=
  SteadyLook.first?
    { blind := fun rest other => by simp [other]
      back := fun placed rest other => by
        cases amount : placed.token with
        | number numeral => cases rest <;> simp [other]
        | _ => rfl
      shift := fun origin placed rest => by
        simp only [PlacedToken.token_shift]
        cases amount : placed.token with
        | number numeral =>
            cases rest with
            | nil => rfl
            | cons next rest =>
                simp only [List.map_cons, PlacedToken.token_shift, PlacedToken.span_shift,
                  Span.start_shift, Span.stop_shift, Nat.add_left_cancel_iff]
                split
                · split <;> rfl
                · rfl
        | _ => rfl }

theorem topLevelSigns_shift (depth : Nat) :
    topLevelSigns depth (tokens.map (.shift origin)) =
      (topLevelSigns depth tokens).map (.shift origin) := by
  induction tokens generalizing depth with
  | nil => rfl
  | cons next rest ih =>
      simp only [List.map_cons, topLevelSigns, PlacedToken.token_shift, ih]
      split
      · rfl
      · rfl
      · split <;> rfl
      · rfl

theorem steady_chained? : Steady chained? where
  front tokens other := by rw [chained?, topLevelSigns_cons_other 0 other, chained?]
  back tokens other := by rw [chained?, topLevelSigns_concat_other 0 other, chained?]
  shift origin tokens := by
    rw [chained?, topLevelSigns_shift, chained?]
    rcases topLevelSigns 0 tokens with _ | ⟨first, _ | ⟨second, others⟩⟩
    · rfl
    · rfl
    · simp [Finding.shift]

/-- The search for an obstacle is steady. -/
theorem steady_ofTokens? : Steady ofTokens? :=
  steady_conditional?.or steady_midpoint? |>.or steady_chained? |>.or steady_call?
    |>.or steady_engineWord? |>.or steady_signedAngle? |>.or steady_durationUnit?

/-- Characters outside the alphabet around the tokens do not matter to a steady search. -/
theorem Steady.surrounded (steady : Steady find)
    (before : ∀ placed ∈ front, ∃ character, placed.token = .other character)
    (behind : ∀ placed ∈ back, ∃ character, placed.token = .other character) :
    find (front ++ (tokens ++ back)) = find tokens := by
  have ahead (tokens : List PlacedToken) : find (front ++ tokens) = find tokens := by
    induction front with
    | nil => rfl
    | cons placed rest ih =>
        obtain ⟨⟨_, other⟩, before⟩ := List.forall_mem_cons.mp before
        rw [List.cons_append, steady.front _ other, ih before]
  rw [ahead]
  induction back using List.reverseRecOn with
  | nil => rw [List.append_nil]
  | append_singleton rest placed ih =>
      obtain ⟨behind, last⟩ := List.forall_mem_append.mp behind
      obtain ⟨_, other⟩ := last placed List.mem_cons_self
      rw [← List.append_assoc, steady.back _ other, ih behind]

end Finding

/-- What is found in a text is found in the trimmed text and shifted behind the leading blanks. -/
theorem Finding.ofTokens?_trim (text : List Char) :
    ofTokens? (placedTokens text) =
      (ofTokens? (placedTokens (trim text))).map (.shift (Position.start.after (leading text))) := by
  obtain ⟨front, back, split, before, behind⟩ := exists_placedTokens_trim text
  rw [split, steady_ofTokens?.surrounded before behind, steady_ofTokens?.shift]

namespace Diagnosis

/-- A span of a text and a span of the trimmed text are those of one token, apart by the number of
bytes that are trimmed from the beginning. -/
structure SameToken (text : List Char) (raw trimmed : Span) : Prop where
  start : raw.start = bytes (leading text) + trimmed.start
  stop : raw.stop = bytes (leading text) + trimmed.stop
  token : ∃ token, ⟨token, raw⟩ ∈ placedTokens text ∧ ⟨token, trimmed⟩ ∈ placedTokens (trim text)

/-- A token that is found in the trimmed text is the one that is found in the text. -/
theorem sameToken_of_ofTokens? {text : List Char} {finding : Finding}
    (found : Finding.ofTokens? (placedTokens (trim text)) = some finding) :
    SameToken text (finding.blamed.span.shift (Position.start.after (leading text)))
      finding.blamed.span := by
  have shifted := Finding.ofTokens?_trim text
  rw [found, Option.map_some] at shifted
  refine ⟨?start, ?stop, finding.blamed.token, ?raw, ?trimmed⟩
  case start => rw [Span.start_shift, Position.offset_start_after]
  case stop => rw [Span.stop_shift, Position.offset_start_after]
  case raw => exact (Finding.shows_of_ofTokens? shifted).member
  case trimmed => exact (Finding.shows_of_ofTokens? found).member

/-- The spans of a text and of the trimmed text are of one token, or there are none. -/
theorem rel_span_trim (text : List Char) :
    Option.Rel (SameToken text) (ofText text).span (ofText (trim text)).span := by
  rw [ofText, ofText, Finding.ofTokens?_trim]
  cases found : Finding.ofTokens? (placedTokens (trim text)) with
  | none => exact .none
  | some finding => exact .some (sameToken_of_ofTokens? found)

theorem details_ofText_trim (text : List Char) :
    (ofText (trim text)).details = (ofText text).details := by
  rw [ofText, ofText, Finding.ofTokens?_trim text]
  cases Finding.ofTokens? (placedTokens (trim text)) <;> rfl

/-- A text and the trimmed text are diagnosed for the same reason with the same details, and at the
same token or both at none; a text that is not blank is rejected for the reason of its diagnosis. -/
theorem agrees_with_trim (text : String) :
    (ofText text.toList).reason = (ofText (trim text.toList)).reason ∧
    (ofText text.toList).details = (ofText (trim text.toList)).details ∧
    Option.Rel (SameToken text.toList) (ofText text.toList).span
      (ofText (trim text.toList)).span ∧
    (¬ Run isBlank text.toList → ∀ rejection, Snapshot.read text = .error rejection →
      rejection.reason = some (ofText text.toList).reason) := by
  refine ⟨(reason_ofText_trim text.toList).symm, (details_ofText_trim text.toList).symm,
    rel_span_trim text.toList, fun solid rejection read => ?_⟩
  exact Rejection.reason_of_read (Snapshot.read_eq_error_iff.mp read)
    (mt trim_eq_nil_iff.mp solid)

/-- Wide blanks before and behind a text shift the blamed unit by their bytes alone. -/
theorem agrees_with_trim_wide :
    Snapshot.read "\u3000@dawn + 5h\u00a0" = .error (.ofTrimmed "@dawn + 5h".toList) ∧
      (Rejection.ofTrimmed "@dawn + 5h".toList).reason =
        some (ofText "\u3000@dawn + 5h\u00a0".toList).reason ∧
      SameToken "\u3000@dawn + 5h\u00a0".toList ⟨12, 13, 1, 11⟩ ⟨9, 10, 1, 10⟩ := by
  have read : Snapshot.read "\u3000@dawn + 5h\u00a0" =
      .error (.ofTrimmed "@dawn + 5h".toList) := by rfl
  have solid : ¬ Run isBlank "\u3000@dawn + 5h\u00a0".toList := fun blank =>
    absurd (blank '@' (by decide)) (by decide)
  obtain ⟨-, -, spans, rejected⟩ := agrees_with_trim "\u3000@dawn + 5h\u00a0"
  have raw : (ofText "\u3000@dawn + 5h\u00a0".toList).span = some ⟨12, 13, 1, 11⟩ := by
    decide +kernel
  have trimmed : (ofText (trim "\u3000@dawn + 5h\u00a0".toList)).span = some ⟨9, 10, 1, 10⟩ := by
    decide +kernel
  rw [raw, trimmed] at spans
  obtain ⟨same⟩ := spans
  exact ⟨read, rejected solid _ read, same⟩

end Diagnosis

end Zmanim
