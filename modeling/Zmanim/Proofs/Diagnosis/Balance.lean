import Zmanim.Proofs.Diagnosis.TopLevel
/-! Pending and balanced brackets. -/

namespace Zmanim

variable {tokens before after front rest : List PlacedToken} {placed : PlacedToken}
  {place later first last : Nat}

theorem not_pending_nil : ¬ Pending [] := not_pending_iff.mpr rfl

/-- Behind tokens that end at top level, a bracket is pending exactly when it is pending without them. -/
theorem pending_append_iff (settled : ¬ Pending before) :
    Pending (before ++ after) ↔ Pending after := by
  rw [pending_iff, pending_iff, depthAfter_append, not_pending_iff.mp settled]

/-- Tokens whose brackets are balanced: behind each opening bracket stands a closing one, with balanced
tokens between them. Brackets of the two shapes are not told apart. -/
inductive Balanced : List PlacedToken → Prop where
  | nil : Balanced []
  | flat {placed : PlacedToken} {rest : List PlacedToken} (plain : placed.token.isBracket = false)
      (behind : Balanced rest) : Balanced (placed :: rest)
  | pair {opening closing : PlacedToken} {inside rest : List PlacedToken}
      (opens : opening.token.opens = true) (closes : closing.token.closes = true)
      (within : Balanced inside) (behind : Balanced rest) :
      Balanced (opening :: (inside ++ closing :: rest))

namespace Balanced

theorem depthAfter_eq (balanced : Balanced tokens) (depth : Nat) : depthAfter depth tokens = depth := by
  induction balanced generalizing depth with
  | nil => rfl
  | flat plain _ ih => rw [depthAfter_cons, Token.depthBehind_of_flat plain, ih]
  | pair opens closes _ _ inner outer =>
      rw [depthAfter_cons, depthAfter_append, depthAfter_cons, Token.depthBehind_of_opens opens, inner,
        Token.depthBehind_of_closes closes, Nat.add_sub_cancel, outer]

theorem not_pending (balanced : Balanced tokens) : ¬ Pending tokens :=
  not_pending_iff.mpr (balanced.depthAfter_eq 0)

/-- Nowhere in balanced tokens is the depth below that at their beginning. -/
theorem le_depthAfter_take (balanced : Balanced tokens) (depth place : Nat) :
    depth ≤ depthAfter depth (tokens.take place) := by
  induction balanced generalizing depth place with
  | nil => simp
  | flat plain _ ih =>
      cases place with
      | zero => exact Nat.le_refl depth
      | succ place =>
          rw [List.take_succ_cons, depthAfter_cons, Token.depthBehind_of_flat plain]
          exact ih depth place
  | @pair opening closing inside rest opens closes within _ inner outer =>
      cases place with
      | zero => exact Nat.le_refl depth
      | succ place =>
          rw [List.take_succ_cons, depthAfter_cons, Token.depthBehind_of_opens opens, List.take_append]
          cases beyond : place - inside.length with
          | zero =>
              rw [List.take_zero, List.append_nil]
              exact (Nat.le_succ depth).trans (inner (depth + 1) place)
          | succ further =>
              have past : inside.length ≤ place := by omega
              rw [List.take_of_length_le past, depthAfter_append, within.depthAfter_eq,
                List.take_succ_cons, depthAfter_cons, Token.depthBehind_of_closes closes,
                Nat.add_sub_cancel]
              exact outer depth further

end Balanced

/-- The places of an opening bracket and of the closing one that makes a pair with it: the tokens
between the two are balanced. -/
inductive BracketPair (tokens : List PlacedToken) : Nat → Nat → Prop where
  | intro {front inside rest : List PlacedToken} {opening closing : PlacedToken}
      (whole : tokens = front ++ opening :: (inside ++ closing :: rest))
      (opens : opening.token.opens = true) (closes : closing.token.closes = true)
      (within : Balanced inside) :
      BracketPair tokens front.length (front.length + inside.length + 1)

/-- A place is enclosed when it lies between the brackets of some pair. -/
def Enclosed (tokens : List PlacedToken) (place : Nat) : Prop :=
  ∃ first last, BracketPair tokens first last ∧ first < place ∧ place < last

theorem BracketPair.append (front : List PlacedToken) (pair : BracketPair rest first last) :
    BracketPair (front ++ rest) (front.length + first) (front.length + last) := by
  obtain @⟨left, inside, right, opening, closing, rfl, opens, closes, within⟩ := pair
  have whole : front ++ (left ++ opening :: (inside ++ closing :: right)) =
      (front ++ left) ++ opening :: (inside ++ closing :: right) := (List.append_assoc ..).symm
  have pair := BracketPair.intro whole opens closes within
  simpa only [List.length_append, Nat.add_assoc] using pair

theorem Enclosed.append (front : List PlacedToken) (enclosed : Enclosed rest place) :
    Enclosed (front ++ rest) (front.length + place) := by
  obtain ⟨first, last, pair, behind, within⟩ := enclosed
  exact ⟨_, _, pair.append front, Nat.add_lt_add_left behind _, Nat.add_lt_add_left within _⟩

/-- At an enclosed place a bracket is pending. -/
theorem Enclosed.pending (enclosed : Enclosed tokens place) : Pending (tokens.take place) := by
  obtain ⟨_, _, @⟨front, inside, right, opening, closing, rfl, opens, closes, within⟩, behind, before⟩ :=
    enclosed
  obtain ⟨offset, rfl⟩ : ∃ offset, place = front.length + (offset + 1) :=
    ⟨place - front.length - 1, by omega⟩
  have inner : offset ≤ inside.length := by omega
  rw [List.take_length_add_append, List.take_succ_cons, List.take_append_of_le_length inner,
    pending_iff, depthAfter_append, depthAfter_cons, Token.depthBehind_of_opens opens]
  have deep := within.le_depthAfter_take (depthAfter 0 front + 1) offset
  omega

/-- A sign stands at a place. -/
def SignAt (tokens : List PlacedToken) (place : Nat) : Prop :=
  ∃ sign ∈ tokens[place]?, sign.token.isSign = true

theorem signAt_append_iff :
    SignAt (front ++ rest) (front.length + place) ↔ SignAt rest place := by
  rw [SignAt, SignAt, List.getElem?_append_right (Nat.le_add_right _ _), Nat.add_sub_cancel_left]

namespace Balanced

/-- When the brackets that are pending before a sign enclose it, they do so also behind balanced
tokens. -/
theorem enclosed_append (balanced : Balanced front)
    (alone : SignAt rest place → Pending (rest.take place) → Enclosed rest place)
    (sign : SignAt (front ++ rest) (front.length + place))
    (pending : Pending ((front ++ rest).take (front.length + place))) :
    Enclosed (front ++ rest) (front.length + place) := by
  rw [List.take_length_add_append, pending_append_iff balanced.not_pending] at pending
  exact (alone (signAt_append_iff.mp sign) pending).append front

/-- Among balanced brackets a sign before which a bracket is pending is enclosed. -/
theorem enclosed (balanced : Balanced tokens) (sign : SignAt tokens place)
    (pending : Pending (tokens.take place)) : Enclosed tokens place := by
  induction balanced generalizing place with
  | nil => exact absurd pending (by simpa using not_pending_nil)
  | @flat first rest plain _ ih =>
      cases place with
      | zero => exact absurd pending not_pending_nil
      | succ place =>
          have single : Balanced [first] := .flat plain .nil
          rw [Nat.add_comm] at sign pending ⊢
          exact single.enclosed_append ih sign pending
  | @pair opening closing inside rest opens closes within _ inner outer =>
      rcases Nat.lt_or_ge place (inside.length + 2) with here | beyond
      · have start : place ≠ 0 := by
          rintro rfl
          exact not_pending_nil pending
        have stop : place ≠ inside.length + 1 := by
          rintro rfl
          obtain ⟨token, same, signed⟩ := sign
          obtain rfl : closing = token := by simpa using same
          exact Bool.false_ne_true ((Token.isSign_eq_false_of_closes closes).symm.trans signed)
        refine ⟨_, _, .intro (List.nil_append _).symm opens closes within, ?_, ?_⟩
        · exact Nat.pos_of_ne_zero start
        · rw [List.length_nil]
          omega
      · have whole : opening :: (inside ++ closing :: rest) =
            (opening :: (inside ++ [closing])) ++ rest := by simp
        have paired : Balanced (opening :: (inside ++ [closing])) := .pair opens closes within .nil
        obtain ⟨offset, rfl⟩ : ∃ offset,
            place = (opening :: (inside ++ [closing])).length + offset :=
          ⟨place - (inside.length + 2), by simp; omega⟩
        rw [whole] at sign pending ⊢
        exact paired.enclosed_append outer sign pending

end Balanced

/-- A sign stands at top level at a place when no bracket is pending before it. -/
def TopLevelAt (tokens : List PlacedToken) (place : Nat) : Prop :=
  SignAt tokens place ∧ ¬ Pending (tokens.take place)

/-- Behind tokens that end at top level, the places at top level are those that there are without
them. -/
theorem topLevelAt_append_iff (settled : ¬ Pending front) :
    TopLevelAt (front ++ rest) (front.length + place) ↔ TopLevelAt rest place := by
  rw [TopLevelAt, TopLevelAt, signAt_append_iff, List.take_length_add_append,
    pending_append_iff settled]

theorem Balanced.topLevelAt_iff (balanced : Balanced tokens) :
    TopLevelAt tokens place ↔ SignAt tokens place ∧ ¬ Enclosed tokens place :=
  and_congr_right fun sign => not_congr ⟨balanced.enclosed sign, Enclosed.pending⟩

theorem lt_length_of_topLevelAt (outside : TopLevelAt tokens place) : place < tokens.length := by
  obtain ⟨⟨_, there, _⟩, _⟩ := outside
  exact (List.getElem?_eq_some_iff.mp there).1

/-- One more token is at top level when it is a sign before which no bracket is pending, and changes
nothing at the places before it. -/
theorem topLevelAt_concat_iff :
    TopLevelAt (tokens ++ [placed]) place ↔
      TopLevelAt tokens place ∨
        place = tokens.length ∧ placed.token.isSign = true ∧ ¬ Pending tokens := by
  rcases Nat.lt_trichotomy place tokens.length with within | rfl | beyond
  · rw [TopLevelAt, TopLevelAt, SignAt, SignAt, List.getElem?_append_left within,
      List.take_append_of_le_length (Nat.le_of_lt within)]
    exact (or_iff_left fun behind => Nat.ne_of_lt within behind.1).symm
  · simp [TopLevelAt, SignAt]
  · refine iff_of_false (fun outside => ?_) (not_or.mpr ⟨fun outside => ?_, fun behind => ?_⟩)
    · have within := lt_length_of_topLevelAt outside
      rw [List.length_append, List.length_singleton] at within
      omega
    · exact Nat.lt_asymm beyond (lt_length_of_topLevelAt outside)
    · exact Nat.ne_of_gt beyond behind.1

/-- A stray closing bracket stands at a place: no opening one is pending before it. -/
inductive StrayAt (tokens : List PlacedToken) : Nat → Prop where
  | intro {before after : List PlacedToken} {closing : PlacedToken}
      (whole : tokens = before ++ closing :: after) (closes : closing.token.closes = true)
      (settled : ¬ Pending before) : StrayAt tokens before.length

theorem eraseIdx_append_cons (before after : List PlacedToken) (placed : PlacedToken) :
    (before ++ placed :: after).eraseIdx before.length = before ++ after := by
  rw [List.eraseIdx_append_of_length_le (Nat.le_refl _), Nat.sub_self, List.eraseIdx_cons_zero]

/-- Behind a stray closing bracket the places at top level are those that there are without it. -/
theorem topLevelAt_eraseIdx_iff (stray : StrayAt tokens place) (behind : place ≤ later) :
    TopLevelAt (tokens.eraseIdx place) later ↔ TopLevelAt tokens (later + 1) := by
  obtain @⟨before, after, closing, rfl, closes, settled⟩ := stray
  obtain ⟨offset, rfl⟩ := Nat.exists_eq_add_of_le behind
  have closed : ¬ Pending (before ++ [closing]) := by
    rw [pending_append_iff settled, not_pending_iff, depthAfter_cons,
      Token.depthBehind_of_closes closes, depthAfter_nil]
  have shifted : before.length + offset + 1 = (before ++ [closing]).length + offset := by
    rw [List.length_append, List.length_singleton, Nat.add_right_comm]
  rw [eraseIdx_append_cons, topLevelAt_append_iff settled, List.append_cons, shifted,
    topLevelAt_append_iff closed]

namespace Finding

/-- One more token is a sign outside all brackets when no bracket is pending before it. -/
theorem topLevelSigns_concat (tokens : List PlacedToken) (placed : PlacedToken) :
    topLevelSigns 0 (tokens ++ [placed]) = topLevelSigns 0 tokens ++
      if placed.token.isSign = true ∧ ¬ Pending tokens then [placed] else [] := by
  rw [topLevelSigns_append, topLevelSigns_step]
  simp only [not_pending_iff, topLevelSigns]

/-- The signs outside all brackets are the same without a stray closing bracket. -/
theorem topLevelSigns_eraseIdx (stray : StrayAt tokens place) :
    topLevelSigns 0 (tokens.eraseIdx place) = topLevelSigns 0 tokens := by
  obtain @⟨before, after, closing, rfl, closes, settled⟩ := stray
  have passed : topLevelSigns 0 (closing :: after) = topLevelSigns 0 after := by
    simp [topLevelSigns_step, Token.isSign_eq_false_of_closes closes,
      Token.depthBehind_of_closes closes]
  rw [eraseIdx_append_cons, topLevelSigns_append, topLevelSigns_append, not_pending_iff.mp settled, passed]

/-- The signs outside all brackets are read off at the places at top level, from left to right. -/
theorem exists_topLevelAt (tokens : List PlacedToken) :
    ∃ places : List Nat, places.Pairwise (· < ·) ∧
      (∀ place, place ∈ places ↔ TopLevelAt tokens place) ∧
      places.map (tokens[·]?) = (topLevelSigns 0 tokens).map some := by
  induction tokens using List.reverseRecOn with
  | nil => exact ⟨[], .nil, by simp [TopLevelAt, SignAt], rfl⟩
  | append_singleton tokens placed ih =>
      obtain ⟨places, ascending, free, signs⟩ := ih
      have within (place : Nat) (member : place ∈ places) : place < tokens.length :=
        lt_length_of_topLevelAt ((free place).mp member)
      have same : places.map ((tokens ++ [placed])[·]?) = places.map (tokens[·]?) :=
        List.map_congr_left fun place member => List.getElem?_append_left (within place member)
      rw [topLevelSigns_concat]
      split
      · rename_i outside
        refine ⟨places ++ [tokens.length], ?ascending, fun place => ?free, ?signs⟩
        case ascending =>
          exact List.pairwise_append.mpr
            ⟨ascending, List.pairwise_singleton _ _, by simpa using within⟩
        case free =>
          rw [topLevelAt_concat_iff, List.mem_append, free, List.mem_singleton, and_iff_left outside]
        case signs => simp [same, signs]
      · rename_i inside
        refine ⟨places, ascending, fun place => ?_, by rw [same, signs, List.append_nil]⟩
        rw [topLevelAt_concat_iff, free, or_iff_left fun here => inside here.2]

end Finding

/-- The places where the signs outside all brackets stand. -/
structure TopLevelPlaces (tokens : List PlacedToken) (places : List Nat) : Prop where
  ascending : places.Pairwise (· < ·)
  signs : places.map (tokens[·]?) = (Finding.topLevelSigns 0 tokens).map some
  mem_iff : ∀ place, place ∈ places ↔ TopLevelAt tokens place
  /-- A stray closing bracket neither hides a place behind it nor exposes one. -/
  behind_stray : ∀ place, StrayAt tokens place → ∀ later, place ≤ later →
    (TopLevelAt (tokens.eraseIdx place) later ↔ later + 1 ∈ places)
  signs_of_stray : ∀ place, StrayAt tokens place →
    Finding.topLevelSigns 0 (tokens.eraseIdx place) = Finding.topLevelSigns 0 tokens
  mem_iff_of_balanced : Balanced tokens →
    ∀ place, place ∈ places ↔ SignAt tokens place ∧ ¬ Enclosed tokens place

/-- Whatever the brackets of tokens, the signs outside all of them have their places at top level. -/
theorem exists_topLevelPlaces (tokens : List PlacedToken) : ∃ places, TopLevelPlaces tokens places := by
  obtain ⟨places, ascending, free, signs⟩ := Finding.exists_topLevelAt tokens
  refine ⟨places, ascending, signs, free, fun place stray later behind => ?stray,
    fun _ => Finding.topLevelSigns_eraseIdx, fun balanced place => ?balanced⟩
  case stray => rw [free, topLevelAt_eraseIdx_iff stray behind]
  case balanced => rw [free, balanced.topLevelAt_iff]

/-- Brackets of two shapes enclose the sign between them and not the one behind them, and a stray
closing bracket does not hide the sign behind it. -/
theorem exists_topLevelPlaces_of_twoShapes :
    (∃ places, TopLevelPlaces (placedTokens "\x7b+)-".toList) places ∧ 1 ∉ places ∧ 3 ∈ places) ∧
      ∃ places, TopLevelPlaces (placedTokens ")-".toList) places ∧ 1 ∈ places := by
  have paired : placedTokens "\x7b+)-".toList =
      ⟨.opening .curly, ⟨0, 1, 1, 1⟩⟩ :: ([⟨.sign .after, ⟨1, 2, 1, 2⟩⟩] ++
        ⟨.closing .round, ⟨2, 3, 1, 3⟩⟩ :: [⟨.sign .before, ⟨3, 4, 1, 4⟩⟩]) := by decide +kernel
  have single : placedTokens ")-".toList =
      [] ++ ⟨.closing .round, ⟨0, 1, 1, 1⟩⟩ :: [⟨.sign .before, ⟨1, 2, 1, 2⟩⟩] := by decide +kernel
  have sign (side : OffsetSide) (span : Text.Span) : Balanced [⟨.sign side, span⟩] := .flat rfl .nil
  have balanced : Balanced (placedTokens "\x7b+)-".toList) :=
    paired ▸ .pair rfl rfl (sign _ _) (sign _ _)
  have pair : BracketPair (placedTokens "\x7b+)-".toList) 0 2 :=
    @BracketPair.intro _ [] _ _ _ _ paired rfl rfl (sign _ _)
  have enclosed : Enclosed (placedTokens "\x7b+)-".toList) 1 := ⟨0, 2, pair, by decide, by decide⟩
  have stray : StrayAt (placedTokens ")-".toList) 0 := .intro single rfl not_pending_nil
  obtain ⟨places, listed⟩ := exists_topLevelPlaces (placedTokens "\x7b+)-".toList)
  obtain ⟨others, alone⟩ := exists_topLevelPlaces (placedTokens ")-".toList)
  refine ⟨⟨places, listed, fun member => ?within, ?behind⟩, others, alone, ?stray⟩
  case within => exact ((listed.mem_iff_of_balanced balanced 1).mp member).2 enclosed
  case behind =>
    rw [listed.mem_iff, paired]
    exact ⟨⟨_, rfl, rfl⟩, by decide⟩
  case stray =>
    rw [← alone.behind_stray 0 stray 0 (Nat.le_refl 0), single]
    exact ⟨⟨_, rfl, rfl⟩, not_pending_nil⟩

end Zmanim
