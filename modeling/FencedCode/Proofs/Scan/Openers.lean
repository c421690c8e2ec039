import FencedCode.Proofs.Scan.Trace
import Mathlib.Algebra.Ring.Parity

/-!
# Openers

Which blocks a scan gives, said without a scan. Only the fence lines decide: one of them is an
opener (`isOpener`) when the language accepts it and the fence line before it is no opener, and the
block of an opener is complete when the next fence line is bare or missing.

## The invariant

A scan that has read some lines is inside a block exactly when the latest fence line among them is
an opener (`Tracks`). Each step keeps this (`Tracks.step`), so that what is left to scan gives the
blocks of the openers that are left, after the block that is open, if it is complete
(`blocks_trace_eq`).
-/
namespace FencedCode.Scan

/-! ## Fence lines -/

/-- The fence lines among lines, the latest first. -/
def fencesRev (lines : List Text) : List Text :=
  (lines.filter isFenceLine).reverse

/-- Whether the first of some fence lines, which are given the latest first, is an opener: the
language accepts it, and the fence line before it is no opener. -/
def latestOpens (language : Language) : List Text → Bool
  | [] => false
  | line :: earlier => (language.opening? line).isSome && !latestOpens language earlier

/-- Whether the line at an index is an opener. -/
def isOpener (language : Language) (lines : List Text) (index : Nat) : Bool :=
  lines[index]?.any isFenceLine && latestOpens language (fencesRev (lines.take (index + 1)))

/-- The lines before the next fence line. -/
def bodyOf (rest : List Text) : List Text :=
  rest.takeWhile fun line => !isFenceLine line

/-- Whether the next fence line is bare or missing. -/
def endsWell (rest : List Text) : Bool :=
  (rest.find? isFenceLine).all (· == fence)

/-- Whether the line at an index is the opener of a block that is complete. -/
def emitsAt (language : Language) (lines : List Text) (index : Nat) : Bool :=
  isOpener language lines index && endsWell (lines.drop (index + 1))

/-- The block that the line at an index opens. -/
def blockAt (language : Language) (lines : List Text) (index : Nat) : Block where
  startLine := index + 1
  attributes := (lines[index]?.bind language.opening?).getD []
  content := ['\n'].intercalate (bodyOf (lines.drop (index + 1)))

section

variable {language : Language} {line : Text} {pre rest : List Text}

/-- A line at the end is the latest fence line, if it is one. -/
theorem fencesRev_concat (pre : List Text) (line : Text) :
    fencesRev (pre ++ [line]) =
      if isFenceLine line then line :: fencesRev pre else fencesRev pre := by
  rw [fencesRev, List.filter_append, List.reverse_append]
  by_cases h : isFenceLine line <;> simp [fencesRev, h]

/-- A body goes on with a line unless this is a fence line. -/
theorem bodyOf_cons (line : Text) (rest : List Text) :
    bodyOf (line :: rest) = if isFenceLine line then [] else line :: bodyOf rest := by
  rw [bodyOf, List.takeWhile_cons]
  cases isFenceLine line <;> rfl

/-- A fence line decides whether the block is complete, and other lines leave it open. -/
theorem endsWell_cons (line : Text) (rest : List Text) :
    endsWell (line :: rest) = if isFenceLine line then line == fence else endsWell rest := by
  rw [endsWell, List.find?_cons]
  cases isFenceLine line <;> rfl

/-- Whether a line is an opener depends only on it and on what stands before it. -/
theorem isOpener_append (pre : List Text) (line : Text) (rest : List Text) :
    isOpener language (pre ++ line :: rest) pre.length =
      (isFenceLine line && latestOpens language (fencesRev (pre ++ [line]))) := by
  rw [isOpener, List.take_length_add_append, List.getElem?_append_right (Nat.le_refl _),
    Nat.sub_self]
  rfl

/-- Whether its block is complete depends besides on what comes after it. -/
theorem emitsAt_append (pre : List Text) (line : Text) (rest : List Text) :
    emitsAt language (pre ++ line :: rest) pre.length =
      (isFenceLine line && latestOpens language (fencesRev (pre ++ [line])) && endsWell rest) := by
  rw [emitsAt, isOpener_append, List.drop_length_add_append]
  rfl

/-- The block of a line: its attributes, and the lines up to the next fence line. -/
theorem blockAt_append (pre : List Text) (line : Text) (rest : List Text) :
    blockAt language (pre ++ line :: rest) pre.length =
      ⟨pre.length + 1, (language.opening? line).getD [], ['\n'].intercalate (bodyOf rest)⟩ := by
  rw [blockAt, List.drop_length_add_append, List.getElem?_append_right (Nat.le_refl _),
    Nat.sub_self]
  rfl

end

/-! ## The blocks of the openers that are left -/

/-- The blocks of the openers among `rest`, the lines that come after `pre`. -/
def blocksAfter (language : Language) (pre rest : List Text) : List Block :=
  ((List.range' pre.length rest.length).filter (emitsAt language (pre ++ rest))).map
    (blockAt language (pre ++ rest))

/-- An open block among the blocks that are given, if it is complete after `rest`. -/
def OpenBlock.outcome (block : OpenBlock) (rest : List Text) : List Block :=
  if endsWell rest then [(block.append (bodyOf rest)).close] else []

section

variable {language : Language} {line attributes : Text} {pre rest : List Text} {block : OpenBlock}
  {state : State}

theorem blocksAfter_nil (language : Language) (pre : List Text) :
    blocksAfter language pre [] = [] :=
  rfl

/-- The blocks of the openers among some lines are that of the first line, if it gives one, and then
those of the others. -/
theorem blocksAfter_cons (language : Language) (pre : List Text) (line : Text) (rest : List Text) :
    blocksAfter language pre (line :: rest) =
      (if emitsAt language (pre ++ line :: rest) pre.length then
        [blockAt language (pre ++ line :: rest) pre.length] else []) ++
      blocksAfter language (pre ++ [line]) rest := by
  rw [blocksAfter, List.length_cons, List.range'_succ, List.filter_cons, blocksAfter,
    List.length_append, List.length_singleton, List.append_assoc, List.singleton_append]
  split <;> rfl

/-- A line that is no opener gives no block. -/
theorem blocksAfter_cons_of_not_opens (h : latestOpens language (fencesRev (pre ++ [line])) = false
      ∨ isFenceLine line = false) (rest : List Text) :
    blocksAfter language pre (line :: rest) = blocksAfter language (pre ++ [line]) rest := by
  rw [blocksAfter_cons, emitsAt_append]
  rcases h with h | h <;> simp [h]

/-- An opener gives its block, if it is complete. -/
theorem blocksAfter_cons_of_opens (hline : language.opening? line = some attributes)
    (h : latestOpens language (fencesRev (pre ++ [line])) = true) (rest : List Text) :
    blocksAfter language pre (line :: rest) =
      OpenBlock.outcome ⟨pre.length + 1, attributes, []⟩ rest ++
        blocksAfter language (pre ++ [line]) rest := by
  rw [blocksAfter_cons, emitsAt_append, blockAt_append, Language.isFenceLine_of_opening? hline, h,
    hline]
  rfl

/-- A line of the body is added to the block that is open. -/
theorem outcome_cons_of_body (hline : isFenceLine line = false) (block : OpenBlock)
    (rest : List Text) : block.outcome (line :: rest) = (block.append [line]).outcome rest := by
  rw [OpenBlock.outcome, OpenBlock.outcome, endsWell_cons, bodyOf_cons, hline,
    OpenBlock.append_append]
  rfl

/-- A bare fence gives the block that is open. -/
theorem outcome_cons_of_fence (block : OpenBlock) (rest : List Text) :
    block.outcome (fence :: rest) = [block.close] := by
  rw [OpenBlock.outcome, endsWell_cons, bodyOf_cons, if_pos (by decide : isFenceLine fence = true),
    if_pos (by decide : isFenceLine fence = true), OpenBlock.append_nil]
  rfl

/-- Any other fence line gives nothing. -/
theorem outcome_cons_of_nested (hline : isFenceLine line = true) (hne : line ≠ fence)
    (block : OpenBlock) (rest : List Text) : block.outcome (line :: rest) = [] := by
  rw [OpenBlock.outcome, endsWell_cons, if_pos hline, if_neg (by simpa using hne)]

end

/-! ## The invariant -/

/-- A scan that has read `pre` is inside a block exactly when the latest fence line is an opener. -/
def Tracks (language : Language) (pre : List Text) (state : State) : Prop :=
  latestOpens language (fencesRev pre) = state.openBlock?.isSome

section

variable {language : Language} {pre : List Text} {state : State} {block : OpenBlock}
  {line attributes : Text}

/-- At the start there is no fence line and no block. -/
theorem tracks_initial (language : Language) : Tracks language [] .initial :=
  rfl

/-- Outside, a line is an opener when the language accepts it. -/
theorem latestOpens_of_outside (h : Tracks language pre state) (ho : state.openBlock? = none)
    (line : Text) :
    latestOpens language (fencesRev (pre ++ [line])) = (language.opening? line).isSome := by
  rw [Tracks, ho] at h
  rw [fencesRev_concat]
  by_cases hline : isFenceLine line = true
  · rw [if_pos hline, latestOpens, h]
    simp
  · have hnone : language.opening? line = none := by
      rw [Option.eq_none_iff_forall_ne_some]
      exact fun attributes ha => hline (Language.isFenceLine_of_opening? ha)
    rw [if_neg hline, h, hnone]
    rfl

/-- Inside, the latest fence line stays an opener until another one comes, which is then none. -/
theorem latestOpens_of_inside (h : Tracks language pre state) (ho : state.openBlock? = some block)
    (line : Text) :
    latestOpens language (fencesRev (pre ++ [line])) = !isFenceLine line := by
  rw [Tracks, ho] at h
  rw [fencesRev_concat]
  by_cases hline : isFenceLine line = true
  · rw [if_pos hline, latestOpens, h, hline]
    simp
  · rw [if_neg hline, h]
    simp [hline]

/-- One more line keeps the invariant. -/
theorem Tracks.step (h : Tracks language pre state) (number : Nat) (line : Text) :
    Tracks language (pre ++ [line]) (state.step language number line).1 := by
  -- outside only an opening fence matters, inside every fence line does
  rcases ho : state.openBlock? with _ | block
  · rw [Tracks, latestOpens_of_outside h ho]
    rcases hline : language.opening? line with _ | attributes
    · rw [State.step_prose ho hline, ho]
      rfl
    · rw [State.step_opening ho hline]
      rfl
  · rw [Tracks, latestOpens_of_inside h ho]
    by_cases hline : isFenceLine line = true
    · by_cases hfence : line = fence
      · rw [hfence, State.step_closing ho]
        rfl
      · rw [State.step_nested ho hline hfence, hline]
        rfl
    · rw [Bool.not_eq_true] at hline
      rw [State.step_body ho hline, State.openBlock?_push ho, hline]
      rfl

/-- **What is left to scan.** From a state that tracks the lines read, a scan gives the block that
is open, if it is complete, and then the blocks of the openers that are left. -/
theorem blocks_trace_eq (h : Tracks language pre state) (rest : List Text) :
    (trace language rest pre.length state).blocks =
      (state.openBlock?.map fun block => block.outcome rest).getD [] ++
        blocksAfter language pre rest := by
  -- by induction on the lines that are left; the invariant passes each of them on to `pre`
  induction rest generalizing pre state with
  | nil =>
    rw [trace_nil, Trace.blocks, blocksAfter_nil]
    rcases state.openBlock? with _ | block
    · rfl
    · simp [OpenBlock.outcome, endsWell, bodyOf]
  | cons line rest ih =>
    have hrest := ih (h.step (pre.length + 1) line)
    rw [List.length_append, List.length_singleton] at hrest
    rw [trace_cons, Trace.blocks_after, hrest]
    rcases ho : state.openBlock? with _ | block
    · have hlatest := latestOpens_of_outside h ho line
      rcases hline : language.opening? line with _ | attributes
      · rw [hline] at hlatest
        rw [State.step_prose ho hline, blocksAfter_cons_of_not_opens (Or.inl hlatest), ho]
        rfl
      · rw [hline] at hlatest
        rw [State.step_opening ho hline, blocksAfter_cons_of_opens hline hlatest]
        rfl
    · have hlatest := latestOpens_of_inside h ho line
      by_cases hline : isFenceLine line = true
      · rw [hline] at hlatest
        rw [blocksAfter_cons_of_not_opens (Or.inl hlatest)]
        by_cases hfence : line = fence
        · subst hfence
          rw [State.step_closing ho, Option.map_some, outcome_cons_of_fence]
          rfl
        · rw [State.step_nested ho hline hfence, Option.map_some,
            outcome_cons_of_nested hline hfence]
          rfl
      · rw [Bool.not_eq_true] at hline
        rw [blocksAfter_cons_of_not_opens (Or.inr hline), State.step_body ho hline,
          State.openBlock?_push ho, Option.map_some, Option.map_some, outcome_cons_of_body hline]
        rfl

end

/-- A scan gives the blocks of the openers that are complete. -/
theorem blocks_scanLines_eq (language : Language) (lines : List Text) :
    (scanLines language lines).1 =
      ((List.range lines.length).filter (emitsAt language lines)).map (blockAt language lines) := by
  rw [scanLines_eq, List.range_eq_range']
  exact blocks_trace_eq (tracks_initial language) lines

/-! ## Openers by position -/

/-- The language accepts the line at an index as the first line of a block. -/
def Accepted (language : Language) (lines : List Text) (index : Nat) : Prop :=
  ∃ line, lines[index]? = some line ∧ (language.opening? line).isSome = true

/-- The last fence line before index `i` is at index `j`. -/
structure FenceBefore (lines : List Text) (j i : Nat) : Prop where
  lt : j < i
  fence : ∃ line, lines[j]? = some line ∧ isFenceLine line = true
  between : ∀ k line, j < k → k < i → lines[k]? = some line → isFenceLine line = false

/-- The accepted fence lines that end with the line at an index and have no other fence line between
them, so that their number is the position of that line in its run of accepted fence lines. -/
def acceptedRun (language : Language) (lines : List Text) (index : Nat) : List Text :=
  (fencesRev (lines.take (index + 1))).takeWhile fun line => (language.opening? line).isSome

section

variable {language : Language} {lines : List Text} {i j : Nat} {line : Text}

/-- A fence line is the latest one after it is read. -/
theorem fencesRev_take_succ_of_fence (hline : lines[i]? = some line)
    (hfence : isFenceLine line = true) :
    fencesRev (lines.take (i + 1)) = line :: fencesRev (lines.take i) := by
  rw [List.take_add_one, hline, Option.toList_some, fencesRev_concat, if_pos hfence]

/-- Any other line, or none, leaves the fence lines as they are. -/
theorem fencesRev_take_succ_of_not_fence
    (h : ∀ line, lines[i]? = some line → isFenceLine line = false) :
    fencesRev (lines.take (i + 1)) = fencesRev (lines.take i) := by
  rw [List.take_add_one]
  rcases hline : lines[i]? with _ | line
  · rw [Option.toList_none, List.append_nil]
  · rw [Option.toList_some, fencesRev_concat, h line hline]
    rfl

/-- A line that is no fence line does not come between. -/
theorem FenceBefore.succ (h : FenceBefore lines j i)
    (hi : ∀ line, lines[i]? = some line → isFenceLine line = false) :
    FenceBefore lines j (i + 1) := by
  refine ⟨Nat.lt_succ_of_lt h.lt, h.fence, fun k line hjk hk hline => ?_⟩
  rcases Nat.lt_succ_iff_lt_or_eq.mp hk with hk | rfl
  · exact h.between k line hjk hk hline
  · exact hi line hline

/-- Up to an index there are the same fence lines as up to the last of them. -/
theorem FenceBefore.fencesRev_take (h : FenceBefore lines j i) :
    fencesRev (lines.take i) = fencesRev (lines.take (j + 1)) := by
  induction i with
  | zero => exact absurd h.lt (Nat.not_lt_zero j)
  | succ i ih =>
    rcases Nat.lt_succ_iff_lt_or_eq.mp h.lt with hlt | rfl
    · have hi : ∀ line, lines[i]? = some line → isFenceLine line = false := fun line hline =>
        h.between i line hlt (Nat.lt_succ_self i) hline
      have hbefore : FenceBefore lines j i :=
        ⟨hlt, h.fence, fun k line hjk hk => h.between k line hjk (Nat.lt_succ_of_lt hk)⟩
      rw [fencesRev_take_succ_of_not_fence hi, ih hbefore]
    · rfl

/-- There is a last fence line before an index, or none at all. -/
theorem exists_fenceBefore (lines : List Text) (i : Nat) :
    fencesRev (lines.take i) = [] ∨ ∃ j, FenceBefore lines j i := by
  induction i with
  | zero => exact Or.inl rfl
  | succ i ih =>
    by_cases hi : ∀ line, lines[i]? = some line → isFenceLine line = false
    · rw [fencesRev_take_succ_of_not_fence hi]
      exact ih.imp_right fun ⟨j, hj⟩ => ⟨j, hj.succ hi⟩
    · simp only [not_forall, Bool.not_eq_false, exists_prop] at hi
      obtain ⟨line, hline, hfence⟩ := hi
      exact Or.inr ⟨i, Nat.lt_succ_self i, ⟨line, hline, hfence⟩, fun k _ hik hk => by omega⟩

/-- The line at an index is an opener when it is a fence line and opens a block after the fence
lines before it. -/
theorem isOpener_iff :
    isOpener language lines i = true ↔ ∃ line, lines[i]? = some line ∧ isFenceLine line = true ∧
      latestOpens language (line :: fencesRev (lines.take i)) = true := by
  rw [isOpener, Bool.and_eq_true, Option.any_eq_true]
  constructor
  · rintro ⟨⟨line, hline, hfence⟩, hlatest⟩
    rw [fencesRev_take_succ_of_fence hline hfence] at hlatest
    exact ⟨line, hline, hfence, hlatest⟩
  · rintro ⟨line, hline, hfence, hlatest⟩
    rw [fencesRev_take_succ_of_fence hline hfence]
    exact ⟨⟨line, hline, hfence⟩, hlatest⟩

/-- The last fence line before an index is an opener when the latest of those before it is. -/
theorem FenceBefore.isOpener_eq (h : FenceBefore lines j i) :
    isOpener language lines j = latestOpens language (fencesRev (lines.take i)) := by
  obtain ⟨line, hline, hfence⟩ := h.fence
  rw [isOpener, hline, h.fencesRev_take, Option.any_some, hfence, Bool.true_and]

/-- A fence line is an opener when the language accepts it and the fence line before it is none. -/
theorem isOpener_iff_before :
    isOpener language lines i = true ↔
      Accepted language lines i ∧
        ∀ j, FenceBefore lines j i → isOpener language lines j = false := by
  rw [isOpener_iff]
  constructor
  · rintro ⟨line, hline, hfence, hlatest⟩
    rw [latestOpens, Bool.and_eq_true, Bool.not_eq_true'] at hlatest
    exact ⟨⟨line, hline, hlatest.1⟩, fun j hj => hj.isOpener_eq.trans hlatest.2⟩
  · rintro ⟨⟨line, hline, haccepted⟩, hbefore⟩
    obtain ⟨attributes, hattributes⟩ := Option.isSome_iff_exists.mp haccepted
    refine ⟨line, hline, Language.isFenceLine_of_opening? hattributes, ?_⟩
    rw [latestOpens, haccepted, Bool.true_and, Bool.not_eq_true']
    -- without a fence line before it there is nothing open that it could end
    rcases exists_fenceBefore lines i with hnone | ⟨j, hj⟩
    · rw [hnone, latestOpens]
    · rw [← hj.isOpener_eq, hbefore j hj]

/-- The latest fence line is an opener when the accepted ones that end with it are odd in number. -/
theorem latestOpens_iff_odd (fences : List Text) :
    latestOpens language fences = true ↔
      Odd (fences.takeWhile fun line => (language.opening? line).isSome).length := by
  induction fences with
  | nil => simp [latestOpens]
  | cons line fences ih =>
    rw [latestOpens, List.takeWhile_cons]
    by_cases h : (language.opening? line).isSome = true
    · rw [if_pos h, h, List.length_cons, Nat.odd_add_one, ← ih]
      simp
    · rw [if_neg h]
      simp [h]

/-- A fence line is an opener when its position in its run of accepted fence lines is odd. -/
theorem isOpener_iff_odd :
    isOpener language lines i = true ↔
      Accepted language lines i ∧ Odd (acceptedRun language lines i).length := by
  rw [isOpener, Bool.and_eq_true, latestOpens_iff_odd, ← acceptedRun]
  -- once the run is odd, only fence line and accepted line are left to compare
  refine and_congr_left fun hodd => ?_
  rw [Option.any_eq_true]
  constructor
  · rintro ⟨line, hline, hfence⟩
    refine ⟨line, hline, ?_⟩
    -- a run of odd length is not empty, so its first line is accepted
    by_contra haccepted
    rw [acceptedRun, fencesRev_take_succ_of_fence hline hfence, List.takeWhile_cons,
      if_neg haccepted] at hodd
    exact absurd hodd (by decide)
  · rintro ⟨line, hline, haccepted⟩
    obtain ⟨attributes, hattributes⟩ := Option.isSome_iff_exists.mp haccepted
    exact ⟨line, hline, Language.isFenceLine_of_opening? hattributes⟩

end

/-- Of three accepted fence lines in a row, the first and the last are openers. -/
example : (List.range 3).filter
    (isOpener (.ofName ['c']) (List.replicate 3 (fence ++ ['c']))) = [0, 2] := by decide

/-- **The closed form of a scan.** A scan gives, in ascending order, one block for each opener whose
next fence line is bare or missing, and nothing else. A fence line is an opener when the language
accepts it and the fence line before it, if there is one, is no opener; that is, when its position
in its run of accepted fence lines is odd. -/
theorem drain_ofLines_eq_openers (language : Language) (lines : List Text) :
    (BlockSource.drain (Scanner.ofLines language lines)).1 =
      ((List.range lines.length).filter fun i =>
        isOpener language lines i && endsWell (lines.drop (i + 1))).map (blockAt language lines) ∧
    (∀ i, isOpener language lines i = true ↔
      Accepted language lines i ∧
        ∀ j, FenceBefore lines j i → isOpener language lines j = false) ∧
    ∀ i, isOpener language lines i = true ↔
      Accepted language lines i ∧ Odd (acceptedRun language lines i).length :=
  ⟨blocks_scanLines_eq language lines, fun _ => isOpener_iff_before, fun _ => isOpener_iff_odd⟩

end FencedCode.Scan
