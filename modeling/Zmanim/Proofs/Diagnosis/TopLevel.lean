import Zmanim.Proofs.Diagnosis.Leftmost
/-! Signs at top level. -/

namespace Zmanim

variable {tokens before rest signs : List PlacedToken} {placed : PlacedToken} {least : Nat}

namespace Token

def opens : Token → Bool
  | .opening _ => true
  | _ => false

def closes : Token → Bool
  | .closing _ => true
  | _ => false

/-- A bracket opens or closes. -/
def isBracket : Token → Bool
  | .opening _ | .closing _ => true
  | _ => false

/-- The number of open brackets behind a token, where a closing bracket without an opening one counts
for nothing. -/
def depthBehind (depth : Nat) : Token → Nat
  | .opening _ => depth + 1
  | .closing _ => depth - 1
  | _ => depth

theorem depthBehind_of_opens {token : Token} (opens : token.opens = true) (depth : Nat) :
    token.depthBehind depth = depth + 1 := by
  cases token <;> simp_all [Token.opens, depthBehind]

theorem depthBehind_of_closes {token : Token} (closes : token.closes = true) (depth : Nat) :
    token.depthBehind depth = depth - 1 := by
  cases token <;> simp_all [Token.closes, depthBehind]

theorem isSign_eq_false_of_closes {token : Token} (closes : token.closes = true) :
    token.isSign = false := by
  cases token <;> simp_all [Token.closes, isSign]

theorem depthBehind_of_flat {token : Token} (flat : token.isBracket = false) (depth : Nat) :
    token.depthBehind depth = depth := by
  cases token <;> simp_all [isBracket, depthBehind]

end Token

/-- The number of open brackets behind tokens that begin at a depth. -/
def depthAfter (depth : Nat) (tokens : List PlacedToken) : Nat :=
  tokens.foldl (fun depth placed => placed.token.depthBehind depth) depth

@[simp] theorem depthAfter_nil (depth : Nat) : depthAfter depth [] = depth := rfl

@[simp] theorem depthAfter_cons (depth : Nat) (placed : PlacedToken) (rest : List PlacedToken) :
    depthAfter depth (placed :: rest) = depthAfter (placed.token.depthBehind depth) rest := rfl

@[simp] theorem depthAfter_append (depth : Nat) (before after : List PlacedToken) :
    depthAfter depth (before ++ after) = depthAfter (depthAfter depth before) after :=
  List.foldl_append

theorem depthAfter_concat (depth : Nat) (tokens : List PlacedToken) (placed : PlacedToken) :
    depthAfter depth (tokens ++ [placed]) = placed.token.depthBehind (depthAfter depth tokens) := by
  rw [depthAfter_append, depthAfter_cons, depthAfter_nil]

/-- A block of tokens outweighs a number when it opens so many brackets more than it closes. -/
def Outweighs (least : Nat) (block : List PlacedToken) : Prop :=
  block.countP (·.token.closes) + least ≤ block.countP (·.token.opens)

theorem exists_suffix_concat_iff {holds : List PlacedToken → Prop} :
    (∃ block, block <:+ tokens ++ [placed] ∧ holds block) ↔
      holds [] ∨ ∃ block, block <:+ tokens ∧ holds (block ++ [placed]) := by
  simp only [List.suffix_concat_iff]
  constructor
  · rintro ⟨block, rfl | ⟨front, rfl, within⟩, there⟩
    · exact .inl there
    · exact .inr ⟨front, within, there⟩
  · rintro (none | ⟨front, within, there⟩)
    · exact ⟨[], .inl rfl, none⟩
    · exact ⟨front ++ [placed], .inr ⟨front, rfl, within⟩, there⟩

/-- So many brackets are open behind tokens as some block at their end opens more than it closes. -/
theorem le_depthAfter_iff :
    least ≤ depthAfter 0 tokens ↔ ∃ block, block <:+ tokens ∧ Outweighs least block := by
  induction tokens using List.reverseRecOn generalizing least with
  | nil => simp [Outweighs]
  | append_singleton tokens placed ih =>
      rw [depthAfter_concat, exists_suffix_concat_iff]
      rcases Nat.eq_zero_or_pos least with rfl | some
      · exact iff_of_true (Nat.zero_le _) (.inl (Nat.le_refl 0))
      have nothing : ¬ Outweighs least [] := by simpa [Outweighs] using Nat.ne_of_gt some
      rw [or_iff_right nothing]
      cases kind : placed.token with
      | opening bracket =>
          obtain ⟨fewer, rfl⟩ : ∃ fewer, least = fewer + 1 := ⟨least - 1, by omega⟩
          have weight (block : List PlacedToken) :
              Outweighs (fewer + 1) (block ++ [placed]) ↔ Outweighs fewer block := by
            simp [Outweighs, kind, Token.opens, Token.closes, ← Nat.add_assoc]
          simp only [weight, ← ih, Token.depthBehind, Nat.add_le_add_iff_right]
      | closing bracket =>
          have weight (block : List PlacedToken) :
              Outweighs least (block ++ [placed]) ↔ Outweighs (least + 1) block := by
            simp [Outweighs, kind, Token.opens, Token.closes, Nat.add_assoc, Nat.add_comm]
          simp only [weight, ← ih, Token.depthBehind]
          omega
      | _ =>
          have weight (block : List PlacedToken) :
              Outweighs least (block ++ [placed]) ↔ Outweighs least block := by
            simp [Outweighs, kind, Token.opens, Token.closes]
          simp only [weight, ← ih, Token.depthBehind]

/-- A bracket is pending behind tokens when some block at their end opens more than it closes. -/
def Pending (tokens : List PlacedToken) : Prop :=
  ∃ block, block <:+ tokens ∧
    block.countP (·.token.closes) < block.countP (·.token.opens)

/-- A bracket is pending behind tokens exactly when they do not end at top level. -/
theorem pending_iff : Pending tokens ↔ depthAfter 0 tokens ≠ 0 := by
  rw [← Nat.pos_iff_ne_zero]
  exact (@le_depthAfter_iff tokens 1).symm

instance : DecidablePred Pending := fun _ => decidable_of_iff _ pending_iff.symm

theorem not_pending_iff : ¬ Pending tokens ↔ depthAfter 0 tokens = 0 :=
  pending_iff.not.trans not_not

/-- A sign is at top level among tokens when no bracket before it is pending. -/
def TopLevel (tokens : List PlacedToken) (placed : PlacedToken) (rest : List PlacedToken) : Prop :=
  placed.token.isSign = true ∧ ∃ before, tokens = before ++ placed :: rest ∧ ¬ Pending before

namespace Finding

theorem topLevelSigns_step (depth : Nat) :
    topLevelSigns depth (placed :: rest) =
      if placed.token.isSign = true ∧ depth = 0 then placed :: topLevelSigns depth rest
      else topLevelSigns (placed.token.depthBehind depth) rest := by
  cases kind : placed.token <;>
    simp [topLevelSigns, kind, Token.isSign, Token.depthBehind]

/-- A sign does not change the depth. -/
theorem depthBehind_of_isSign {token : Token} (sign : token.isSign = true) (depth : Nat) :
    token.depthBehind depth = depth := by
  cases token <;> simp_all [Token.isSign, Token.depthBehind]

/-- Behind some tokens the signs outside all brackets are told from the depth at their end. -/
theorem topLevelSigns_append (depth : Nat) (before rest : List PlacedToken) :
    topLevelSigns depth (before ++ rest) =
      topLevelSigns depth before ++ topLevelSigns (depthAfter depth before) rest := by
  induction before generalizing depth with
  | nil => rfl
  | cons placed others ih =>
      rw [List.cons_append, topLevelSigns_step, topLevelSigns_step, depthAfter_cons]
      split
      · rename_i outside
        rw [ih, depthBehind_of_isSign outside.1, List.cons_append]
      · rw [ih]

/-- The first of the signs outside all brackets is the leftmost at top level, and the others are those
behind it. -/
theorem leftmost_of_topLevelSigns (whole : tokens = before ++ rest)
    (found : topLevelSigns (depthAfter 0 before) rest = placed :: signs) :
    ∃ between more, rest = between ++ placed :: more ∧
      Leftmost (TopLevel tokens) rest placed more ∧
      topLevelSigns (depthAfter 0 (before ++ (between ++ [placed]))) more = signs := by
  induction rest generalizing before with
  | nil => simp [topLevelSigns] at found
  | cons first others ih =>
      have unfolded : depthAfter 0 (before ++ [first]) =
          first.token.depthBehind (depthAfter 0 before) := depthAfter_concat 0 before first
      rw [topLevelSigns_step] at found
      split at found
      · rename_i outside
        obtain ⟨rfl, rfl⟩ := List.cons.inj found
        have here : TopLevel tokens first others :=
          ⟨outside.1, before, whole, not_pending_iff.mpr outside.2⟩
        refine ⟨[], others, rfl, .head here, ?_⟩
        rw [List.nil_append, unfolded, depthBehind_of_isSign outside.1]
      · rename_i inside
        have elsewhere : ¬ TopLevel tokens first others := by
          rintro ⟨sign, front, shape, settled⟩
          obtain rfl : before = front := List.append_cancel_right (whole.symm.trans shape)
          exact inside ⟨sign, not_pending_iff.mp settled⟩
        rw [← unfolded] at found
        have split : tokens = (before ++ [first]) ++ others := by simpa using whole
        obtain ⟨between, more, shape, leftmost, further⟩ := ih split found
        refine ⟨first :: between, more, by rw [shape, List.cons_append], leftmost.cons elsewhere, ?_⟩
        simpa using further

end Finding

end Zmanim
