import Zmanim.Proofs.Diagnosis.Agreement
import Zmanim.Proofs.Editor.Run
import Zmanim.Proofs.Rejection.Excerpt
/-! Offsets with a second sign. -/

namespace Zmanim
open Text

namespace Text

variable {text left : List Char}

theorem Stops.append_cons {kind : Char → Bool} {character : Char} (stops : Stops kind text)
    (other : kind character = false) : Stops kind (text ++ character :: left) := by
  cases text with
  | nil => exact stops_cons.mpr other
  | cons first rest => exact stops

/-- The number of signs outside all brackets, where a closing bracket without an opening one counts
for nothing. -/
def signsOutside (depth : Nat) : List Char → Nat
  | [] => 0
  | first :: rest =>
      if first ∈ ['(', '\x7b'] then signsOutside (depth + 1) rest
      else if first ∈ [')', '\x7d'] then signsOutside (depth - 1) rest
      else if first ∈ ['+', '-'] ∧ depth = 0 then signsOutside depth rest + 1
      else signsOutside depth rest

/-- The signs and the brackets. -/
def marks : List Char := ['(', '\x7b', ')', '\x7d', '+', '-']

/-- Characters other than signs and brackets do not count. -/
theorem signsOutside_append (depth : Nat) (quiet : Run (· ∉ marks) text) :
    signsOutside depth (text ++ left) = signsOutside depth left := by
  induction text with
  | nil => rfl
  | cons first rest ih =>
      obtain ⟨same, quiet⟩ := run_cons.mp quiet
      have outside := of_decide_eq_true same
      simp only [marks, List.mem_cons, not_or] at outside
      simp [signsOutside, outside, ih quiet]

theorem signsOutside_quiet (depth : Nat) (quiet : Run (· ∉ marks) left) :
    signsOutside depth (text ++ left) = signsOutside depth text := by
  induction text generalizing depth with
  | nil => simpa using @signsOutside_append left [] depth quiet
  | cons first rest ih => simp only [List.cons_append, signsOutside, ih]

/-- A kind of characters without signs and brackets. -/
theorem Run.quiet {kind : Char → Bool} (run : Run kind text)
    (outside : Run (fun mark => !kind mark) marks) : Run (· ∉ marks) text := by
  refine run.mono fun character same => decide_eq_true fun mark => ?_
  simpa [same] using outside character mark

end Text

namespace Token

variable {token : Token}

/-- A mark is a sign or a bracket. -/
def isMark (token : Token) : Bool := token.isSign || token.isBracket

/-- Only marks are spelled with signs and brackets. -/
theorem run_spelling (legible : token.Legible) (plain : token.isMark = false) :
    Run (· ∉ marks) token.spelling := by
  cases token with
  | name => exact (NameShaped.run legible).quiet (List.all_eq_true.mp rfl)
  | reference =>
      have word := (NameShaped.run legible).quiet (List.all_eq_true.mp rfl)
      exact run_cons.mpr ⟨by decide, word⟩
  | number =>
      have whole := legible.whole.quiet (List.all_eq_true.mp rfl)
      have fraction := legible.fraction.quiet (List.all_eq_true.mp rfl)
      rw [spelling, Numeral.spelling]
      split
      · exact whole
      · exact run_append.mpr ⟨whole, run_cons.mpr ⟨by decide, fraction⟩⟩
  | other character =>
      refine run_cons.mpr ⟨decide_eq_true fun mark => ?_, run_nil⟩
      have same := legible.2.2
      simp only [marks, List.mem_cons, List.not_mem_nil, or_false] at mark
      rcases mark with rfl | rfl | rfl | rfl | rfl | rfl <;> exact absurd same (by decide)
  | sign | opening | closing => simp [isMark, isSign, isBracket] at plain
  | _ => exact run_cons.mpr ⟨by decide, run_nil⟩

end Token

namespace Finding

variable {first second : List PlacedToken} {placed : PlacedToken} {left : List Char}

/-- A token that is no mark changes neither the depth nor the signs. -/
theorem topLevelSigns_cons (depth : Nat) (plain : placed.token.isMark = false) :
    topLevelSigns depth (placed :: second) = topLevelSigns depth second := by
  rw [topLevelSigns]
  split <;> simp_all [Token.isMark, Token.isSign, Token.isBracket]

/-- A token counts as the characters of its spelling do. -/
theorem length_topLevelSigns_cons (depth : Nat) (legible : placed.token.Legible)
    (same : ∀ depth, (topLevelSigns depth second).length = signsOutside depth left) :
    (topLevelSigns depth (placed :: second)).length =
      signsOutside depth (placed.token.spelling ++ left) := by
  cases plain : placed.token.isMark with
  | false =>
      rw [topLevelSigns_cons depth plain, same,
        signsOutside_append depth (Token.run_spelling legible plain)]
  | true =>
      rw [topLevelSigns]
      cases kind : placed.token with
      | sign side =>
          have count : signsOutside depth ((Token.sign side).spelling ++ left) =
              if depth = 0 then signsOutside depth left + 1 else signsOutside depth left := by
            cases side <;> simp [Token.spelling, OffsetSide.sign, signsOutside]
          dsimp only
          rw [count]
          split
          · rw [List.length_cons, same]
          · rw [same]
      | opening bracket => cases bracket <;> exact same (depth + 1)
      | closing bracket => cases bracket <;> exact same (depth - 1)
      | _ => simp [kind, Token.isMark, Token.isSign, Token.isBracket] at plain

/-- The signs outside all brackets are counted alike in a text and in its tokens. -/
theorem length_topLevelSigns (depth : Nat) (position : Position) (text : List Char) :
    (topLevelSigns depth (placedTokensFrom position text)).length = signsOutside depth text := by
  fun_induction placedTokensFrom position text generalizing depth with
  | case1 => rfl
  | case2 position first rest gap ih =>
      have blank : Run isGap [first] := run_cons.mpr ⟨gap, run_nil⟩
      rw [ih, ← signsOutside_append depth (blank.quiet (List.all_eq_true.mp rfl)),
        List.singleton_append]
  | case3 position first rest gap token stop ih =>
      rw [← Token.spelling_scan first rest]
      exact length_topLevelSigns_cons depth
        (Token.legible_scan (Bool.eq_false_iff.mpr gap) rest) ih

/-- Behind tokens without brackets the depth is the same. -/
theorem topLevelSigns_append_of_flat (depth : Nat)
    (flat : ∀ placed ∈ first, placed.token.isBracket = false) :
    topLevelSigns depth (first ++ second) =
      topLevelSigns depth first ++ topLevelSigns depth second := by
  have level : depthAfter depth first = depth := by
    induction first with
    | nil => rfl
    | cons placed rest ih =>
        obtain ⟨same, flat⟩ := List.forall_mem_cons.mp flat
        rw [depthAfter_cons, Token.depthBehind_of_flat same, ih flat]
  rw [topLevelSigns_append, level]

end Finding

/-- A call is not begun by tokens without brackets, when what follows them does not begin with a
bracket. -/
theorem Calls.of_append {name : String} {first second : List Token}
    (flat : ∀ token ∈ first, token.isBracket = false)
    (apart : second.head? ≠ some (.opening .round)) (calls : Calls name (first ++ second)) :
    Calls name second := by
  induction first with
  | nil => exact calls
  | cons token rest ih =>
      obtain ⟨-, flat⟩ := List.forall_mem_cons.mp flat
      rcases calls_cons_iff.mp calls with ⟨-, opens⟩ | inside
      · cases rest with
        | nil => exact absurd opens apart
        | cons next others =>
            obtain rfl : next = .opening .round := by simpa using opens
            simpa [Token.isBracket] using flat _ List.mem_cons_self
      · exact ih flat inside

/-- The tokens of an offset: one sign, no bracket and no `else`. -/
structure SingleSign (placed : List PlacedToken) : Prop where
  flat : ∀ token ∈ placed.map PlacedToken.token, token.isBracket = false
  noElse : .name "else" ∉ placed.map PlacedToken.token
  signs : ∃ sign, Finding.topLevelSigns 0 placed = [sign]

namespace SingleSign
open Finding

variable {first rest others : List PlacedToken} {sign : PlacedToken} {side : OffsetSide}
  {name : String}

theorem of_recognized {minutes : UInt32}
    (recognized : (Formula.offset name side minutes).Recognized first) : SingleSign first := by
  cases recognized with
  | @offset base sign number unit _ _ digits member free mark amount _ word _ =>
      have noElse : .name "else" ≠ base.token := fun same =>
        else_not_mem_nameTokens free (same ▸ member)
      have plain : base.token.isMark = false := by
        simp only [nameTokens, List.mem_cons, List.not_mem_nil, or_false] at member
        rcases member with same | same <;> rw [same] <;> rfl
      have flat := (Bool.or_eq_false_iff.mp plain).2
      refine ⟨?_, ?_, sign, ?_⟩
      · intro token inside
        simp only [List.map_cons, List.map_nil, mark, amount, word, List.mem_cons,
          List.not_mem_nil, or_false] at inside
        rcases inside with rfl | rfl | rfl | rfl
        · exact flat
        all_goals rfl
      · simp [mark, amount, word, noElse]
      · rw [topLevelSigns_cons 0 plain]
        simp [topLevelSigns, mark, amount, word]

/-- Characters outside the alphabet may follow. -/
theorem append_others (single : SingleSign first)
    (plain : ∀ placed ∈ others, ∃ character, placed.token = .other character) :
    SingleSign (first ++ others) := by
  induction others generalizing first with
  | nil => rwa [List.append_nil]
  | cons placed rest ih =>
      obtain ⟨⟨character, other⟩, plain⟩ := List.forall_mem_cons.mp plain
      obtain ⟨flat, noElse, signs⟩ := single
      rw [List.append_cons]
      refine ih ⟨?_, ?_, ?_⟩ plain
      · simpa [or_imp, forall_and, other, Token.isBracket] using flat
      · simpa [other] using noElse
      · rw [topLevelSigns_append_of_flat 0 (List.forall_mem_map.mp flat)]
        simpa [topLevelSigns, other] using signs

theorem chained?_append (single : SingleSign first) (marked : sign.token = .sign side) :
    chained? (first ++ sign :: rest) =
      some ⟨.chained (1 + (topLevelSigns 0 (sign :: rest)).length), sign⟩ := by
  obtain ⟨one, signs⟩ := single.signs
  have next : topLevelSigns 0 (sign :: rest) = sign :: topLevelSigns 0 rest := by
    simp [topLevelSigns, marked]
  rw [chained?, topLevelSigns_append_of_flat 0 (List.forall_mem_map.mp single.flat), signs, next]
  simp [Nat.add_comm]

theorem calls_of_append (single : SingleSign first) (marked : sign.token = .sign side)
    (calls : Calls name ((first ++ sign :: rest).map PlacedToken.token)) :
    Calls name (rest.map PlacedToken.token) := by
  rw [List.map_append, List.map_cons, marked] at calls
  have inside := calls.of_append single.flat (by simp)
  simpa using inside

theorem ofTokens?_append (single : SingleSign first) (marked : sign.token = .sign side)
    (noElse : .name "else" ∉ rest.map PlacedToken.token)
    (noIf : ¬ Calls "if" (rest.map PlacedToken.token))
    (noMidpoint : ¬ Calls "midpoint" (rest.map PlacedToken.token)) :
    ofTokens? (first ++ sign :: rest) =
      some ⟨.chained (1 + (topLevelSigns 0 (sign :: rest)).length), sign⟩ := by
  have conditional : conditional? (first ++ sign :: rest) = none := by
    rw [← Option.not_isSome_iff_eq_none, conditional?_isSome_iff]
    rintro (member | calls)
    · rw [List.map_append, List.map_cons, marked] at member
      rcases List.mem_append.mp member with before | member
      · exact single.noElse before
      · rcases List.mem_cons.mp member with here | behind
        · exact absurd here nofun
        · exact noElse behind
    · exact noIf (single.calls_of_append marked calls)
  have midpoint : midpoint? (first ++ sign :: rest) = none := by
    rw [← Option.not_isSome_iff_eq_none, midpoint?_isSome_iff]
    exact fun calls => noMidpoint (single.calls_of_append marked calls)
  simp only [ofTokens?, conditional, midpoint, single.chained?_append marked, Option.none_or,
    Option.some_or]

/-- The text of an offset has the tokens of one, also with the blanks at its end. -/
theorem of_read {text : String} {minutes : UInt32}
    (read : Formula.read text = .ok (.offset name side minutes)) :
    SingleSign (placedTokens (text.toList.dropWhile isBlank)) := by
  obtain ⟨after, blank, whole⟩ := exists_trim_append text.toList
  rw [whole, placedTokens, placedTokensFrom_append _ (Token.stops_isInner_of_run blank)]
  exact (of_recognized (Formula.recognized_of_read read)).append_others fun _ =>
    exists_other_of_run blank

end SingleSign

/-- A text is trimmed on both sides of a character that is no blank. -/
theorem Text.exists_trim_append_cons {character : Char} (solid : isBlank character = false)
    (text more : List Char) :
    ∃ rest after, Run isBlank after ∧ more = rest ++ after ∧
      trim (text ++ character :: more) = text.dropWhile isBlank ++ character :: rest := by
  let rest := (more.reverse.dropWhile isBlank).reverse
  let after := (more.reverse.takeWhile isBlank).reverse
  have blank : Run isBlank after := (run_takeWhile more.reverse).reverse
  have split : more = rest ++ after := by
    rw [← List.reverse_append, List.takeWhile_append_dropWhile, List.reverse_reverse]
  have whole : text ++ character :: more =
      text.takeWhile isBlank ++ ((text.dropWhile isBlank ++ character :: rest) ++ after) := by
    rw [← List.append_assoc, ← List.append_assoc, List.takeWhile_append_dropWhile,
      List.append_assoc, List.cons_append, ← split]
  refine ⟨rest, after, blank, split, ?_⟩
  rw [whole]
  refine trim_append (run_takeWhile text) blank ⟨?first, ?last⟩ (by simp)
  case first => exact (stops_dropWhile text).append_cons solid
  case last =>
    rw [List.reverse_append, List.reverse_cons, List.append_assoc, List.singleton_append,
      List.reverse_reverse]
    exact (stops_dropWhile more.reverse).append_cons solid

/-- A sign is a token by itself. -/
theorem placedTokens_append_sign (side : OffsetSide) (before rest : List Char) :
    placedTokens (before ++ side.sign :: rest) =
      placedTokens before ++
        ⟨.sign side, Span.between (Position.start.after before)
          ((Position.start.after before).after [side.sign])⟩ ::
          placedTokensFrom ((Position.start.after before).after [side.sign]) rest := by
  have stops : Stops Token.isInner (side.sign :: rest) := by
    cases side <;> exact stops_cons.mpr rfl
  have legible : (Token.sign side).Legible := trivial
  have ends : Stops (Token.sign side).goesOn rest := fun _ _ => rfl
  rw [placedTokens, placedTokensFrom_append _ stops]
  exact congrArg _ (placedTokensFrom_spelling _ legible ends)

namespace Rejection

variable {before rest : List Char} {side : OffsetSide}

/-- A sign behind an offset has the text rejected. -/
theorem untaken_of_secondSign (single : SingleSign (placedTokens before))
    (trimmed : Trimmed (before ++ side.sign :: rest)) :
    Formula.ofTrimmed? (before ++ side.sign :: rest) = none ∧
      ∃ reason ∈ [Reason.conditional, .midpoint, .chainedOperations],
        (ofTrimmed (before ++ side.sign :: rest)).reason = some reason := by
  have chained : (Finding.chained? (placedTokens (before ++ side.sign :: rest))).isSome = true := by
    rw [placedTokens_append_sign, single.chained?_append rfl]
    rfl
  constructor
  · rw [Option.eq_none_iff_forall_ne_some]
    intro formula taken
    have recognized := ((Formula.ofTrimmed?_eq_some_iff_written trimmed).mp taken).recognized
    exact absurd (Finding.chained?_isSome_iff.mp chained) (Nat.not_lt.mpr recognized.unmarked.oneSign)
  · refine ⟨_, ?_, (reason_ofTrimmed _).1⟩
    rw [Diagnosis.ofText, Finding.reason_ofTokens?, if_pos chained]
    split
    · simp
    · split <;> simp

/-- A sign behind an offset is blamed when no marker of higher rank comes after it. -/
theorem marksToken_secondSign (single : SingleSign (placedTokens before))
    (trimmed : Trimmed (before ++ side.sign :: rest)) (noElse : .name "else" ∉ tokens rest)
    (noIf : ¬ Calls "if" (tokens rest)) (noMidpoint : ¬ Calls "midpoint" (tokens rest)) :
    (ofTrimmed (before ++ side.sign :: rest)).reason = some .chainedOperations ∧
      (ofTrimmed (before ++ side.sign :: rest)).details =
        some ("Formula chains " ++ Nat.repr (1 + signsOutside 0 (side.sign :: rest)) ++
          " arithmetic operations; the formula builder supports a single offset") ∧
      ∃ placed, placed.token = .sign side ∧
        (ofTrimmed (before ++ side.sign :: rest)).MarksToken placed before (side.sign :: rest) := by
  let position := Position.start.after before
  let placed : PlacedToken :=
    ⟨.sign side, Span.between position (position.after [side.sign])⟩
  have count : (Finding.topLevelSigns 0
      (placed :: placedTokensFrom (position.after [side.sign]) rest)).length =
        signsOutside 0 (side.sign :: rest) :=
    Finding.length_topLevelSigns_cons 0 trivial fun depth => Finding.length_topLevelSigns depth _ rest
  have kinds := map_token_placedTokensFrom (position.after [side.sign]) rest
  rw [← kinds] at noElse noIf noMidpoint
  have found : Finding.ofTokens? (placedTokens (before ++ side.sign :: rest)) =
      some ⟨.chained (1 + signsOutside 0 (side.sign :: rest)), placed⟩ := by
    rw [placedTokens_append_sign, single.ofTokens?_append rfl noElse noIf noMidpoint, count]
  have plain : Run isPlain [side.sign] := by cases side <;> exact List.all_eq_true.mp rfl
  rw [ofTrimmed_of_finding found]
  exact ⟨rfl, rfl, placed, rfl, marksToken_advancedAt rfl nofun plain trimmed.last⟩

end Rejection

namespace Snapshot

variable {text : String} {snapshot : Snapshot}

/-- The formula of a snapshot whose chosen method is an offset. -/
theorem exists_offset_of_read (read : Snapshot.read text = .ok snapshot)
    (chosen : snapshot.editor.method = some .fixedOffset) :
    ∃ base side minutes, Formula.read text = .ok (.offset base side minutes) := by
  obtain ⟨formula, taken, rfl⟩ := read_eq_ok_iff.mp read
  cases formula with
  | offset base side minutes => exact ⟨base, side, minutes, taken⟩
  | proportional hours day => cases day <;> exact absurd chosen nofun
  | _ => exact absurd chosen nofun

/-- An offset is not read from the beginning of a longer text: a second sign has the text rejected,
whatever comes after it, and that sign is blamed unless a marker of higher rank comes after it. -/
theorem rejects_secondSign (read : Snapshot.read text = .ok snapshot)
    (chosen : snapshot.editor.method = some .fixedOffset) (side : OffsetSide) (more : String) :
    ∃ rejection, Snapshot.read (text ++ side.sign.toString ++ more) = .error rejection ∧
      (∃ reason ∈ [Reason.conditional, .midpoint, .chainedOperations],
        rejection.reason = some reason) ∧
      (.name "else" ∉ tokens more.toList → ¬ Calls "if" (tokens more.toList) →
        ¬ Calls "midpoint" (tokens more.toList) →
        rejection.reason = some .chainedOperations ∧
        rejection.details =
          some ("Formula chains " ++ Nat.repr (1 + signsOutside 0 (side.sign :: more.toList)) ++
            " arithmetic operations; the formula builder supports a single offset") ∧
        ∃ placed rest,
          trim (text ++ side.sign.toString ++ more).toList =
            text.toList.dropWhile isBlank ++ side.sign :: rest ∧
          placed.token = .sign side ∧
          rejection.MarksToken placed (text.toList.dropWhile isBlank) (side.sign :: rest)) := by
  obtain ⟨base, first, minutes, taken⟩ := exists_offset_of_read read chosen
  have single := SingleSign.of_read taken
  have solid : isBlank side.sign = false := by cases side <;> rfl
  obtain ⟨rest, after, blank, split, trims⟩ :=
    exists_trim_append_cons solid text.toList more.toList
  have spelled : (text ++ side.sign.toString ++ more).toList =
      text.toList ++ side.sign :: more.toList := by simp
  have trimmed : Trimmed (text.toList.dropWhile isBlank ++ side.sign :: rest) :=
    trims ▸ trimmed_trim _
  have nonempty : ¬ Run isBlank (text ++ side.sign.toString ++ more).toList := by
    rw [← trim_eq_nil_iff, spelled, trims]
    simp
  obtain ⟨untaken, early⟩ := Rejection.untaken_of_secondSign single trimmed
  refine ⟨Rejection.ofTrimmed (text.toList.dropWhile isBlank ++ side.sign :: rest), ?_, early, ?_⟩
  · rw [read_eq_error_iff, Formula.read_eq_error_iff nonempty, spelled, trims]
    exact ⟨untaken, rfl⟩
  · intro noElse noIf noMidpoint
    have quiet := blank.quiet (List.all_eq_true.mp rfl)
    have cut : tokens more.toList = tokens rest ++ tokens after := by
      rw [split, tokens_append (Token.stops_isInner_of_run blank)]
    have within : tokens rest <+: tokens more.toList := cut ▸ List.prefix_append _ _
    obtain ⟨reason, details, placed, marked, marks⟩ := Rejection.marksToken_secondSign single trimmed
      (fun member => noElse (within.subset member)) (fun calls => noIf (calls.trans within.isInfix))
      fun calls => noMidpoint (calls.trans within.isInfix)
    have count : signsOutside 0 (side.sign :: more.toList) = signsOutside 0 (side.sign :: rest) := by
      rw [split, ← List.cons_append, signsOutside_quiet 0 quiet]
    rw [count, spelled, trims]
    exact ⟨reason, details, placed, rest, rfl, marked, marks⟩

/-- Neither a wide blank before the second sign nor brackets that do not match after it hide it. -/
theorem rejects_secondSign_of_brackets :
    ∃ rejection,
      Snapshot.read ("dawn - 7min\u3000" ++ OffsetSide.after.sign.toString ++ "(- if) - é\x7d +") =
        .error rejection ∧
      rejection.reason = some .chainedOperations ∧
      rejection.details = some ("Formula chains 4 arithmetic operations; " ++
        "the formula builder supports a single offset") := by
  have read : Snapshot.read "dawn - 7min\u3000" = .ok (ofFormula (.offset "dawn" .before 7)) := rfl
  obtain ⟨rejection, rejected, -, blamed⟩ := rejects_secondSign read rfl .after "(- if) - é\x7d +"
  obtain ⟨reason, details, -⟩ :=
    blamed (by decide +kernel) (by decide +kernel) (by decide +kernel)
  exact ⟨rejection, rejected, reason, details.trans (by decide +kernel)⟩

end Snapshot

end Zmanim
