import Mathlib.Data.List.Basic
import Mathlib.Data.List.Range

namespace History

/-!
# Histories of observations

A history is a list of observations in the order in which they were made.  A
condition on each entry and the entries before it is preserved when an entry
that meets it is added; and a history whose entries are sorted by a number is
the concatenation, in the order of these numbers, of its parts with one number.
-/

variable {α β : Type}

/-- Every entry meets a condition on the entries before it. -/
def Each
    (condition : List α → α → Prop)
    (history : List α) : Prop :=
  ∀ earlier entry later,
    history = earlier ++ entry :: later →
    condition earlier entry

/-- The empty history has no entry. -/
theorem each_nil
    (condition : List α → α → Prop) :
    Each condition [] := by
  intro earlier entry later shape
  simp at shape

/-- A condition holds of each entry when it holds of the old ones and the new one. -/
theorem each_snoc
    {condition : List α → α → Prop}
    {history : List α}
    {entry : α} :
    Each condition (history ++ [entry]) ↔
      Each condition history ∧ condition history entry := by
  constructor
  · intro each
    refine ⟨?_, each history entry [] rfl⟩
    intro earlier middle later shape
    exact each earlier middle (later ++ [entry]) (by simp [shape])
  · rintro ⟨old, new⟩ earlier middle later shape
    rcases List.eq_nil_or_concat later with atEnd | ⟨front, last, laterShape⟩
    · subst later
      obtain ⟨sameHistory, sameEntry⟩ :=
        List.append_inj' shape rfl
      simp only [List.cons.injEq, and_true] at sameEntry
      subst earlier
      subst middle
      exact new
    · subst later
      have inside : history = earlier ++ middle :: front := by
        have regrouped :
            history ++ [entry] =
              (earlier ++ middle :: front) ++ [last] := by
          simpa [List.concat_eq_append] using shape
        exact (List.append_inj' regrouped rfl).1
      exact old earlier middle front inside

/-- The entries of a concatenation, each with all entries before it. -/
theorem each_append
    {condition : List α → α → Prop}
    {history entries : List α} :
    Each condition (history ++ entries) ↔
      Each condition history ∧
        Each (fun earlier => condition (history ++ earlier)) entries := by
  induction entries using List.reverseRecOn with
  | nil =>
      simp [each_nil]
  | append_singleton front last inductionHypothesis =>
      rw [← List.append_assoc, each_snoc, inductionHypothesis, each_snoc,
        and_assoc]

/-- Entries that meet the condition anywhere may be added. -/
theorem Each.extend
    {condition : List α → α → Prop}
    {history entries : List α}
    (each : Each condition history)
    (free : ∀ entry ∈ entries, ∀ earlier, condition earlier entry) :
    Each condition (history ++ entries) := by
  rw [each_append]
  refine ⟨each, fun earlier entry later shape => ?_⟩
  exact free entry (by simp [shape]) _

/-- A weaker condition holds of each entry. -/
theorem Each.imp
    {strong weak : List α → α → Prop}
    (implies : ∀ earlier entry, strong earlier entry → weak earlier entry)
    {history : List α}
    (each : Each strong history) :
    Each weak history :=
  fun earlier entry later shape =>
    implies earlier entry (each earlier entry later shape)

/-- A condition on the entries that are kept holds of each entry that is kept. -/
theorem Each.filter
    {condition : List α → α → Prop}
    {keep : α → Bool}
    (ofKept :
      ∀ earlier entry,
        keep entry = true →
        condition earlier entry →
        condition (earlier.filter keep) entry)
    {history : List α}
    (each : Each condition history) :
    Each condition (history.filter keep) := by
  induction history using List.reverseRecOn with
  | nil =>
      exact each_nil condition
  | append_singleton front last inductionHypothesis =>
      obtain ⟨old, new⟩ := each_snoc.mp each
      cases kept : keep last with
      | true =>
          simp only [List.filter_append, List.filter_cons, kept, ↓reduceIte,
            List.filter_nil]
          exact each_snoc.mpr
            ⟨inductionHypothesis old, ofKept front last kept new⟩
      | false =>
          simpa [kept] using inductionHypothesis old

/-- Entries without a name leave the names of a history as they are. -/
theorem filterMap_append_unnamed
    {name? : α → Option β}
    {history entries : List α}
    (unnamed : ∀ entry ∈ entries, name? entry = none) :
    (history ++ entries).filterMap name? = history.filterMap name? := by
  have none : entries.filterMap name? = [] :=
    List.filterMap_eq_nil_iff.mpr unnamed
  rw [List.filterMap_append, none, List.append_nil]

/-- Where no name occurs twice, an entry is known by its name. -/
theorem eq_of_name
    {name? : α → Option β}
    {history : List α}
    {one two : α}
    {name : β}
    (once : (history.filterMap name?).Nodup)
    (inOne : one ∈ history)
    (inTwo : two ∈ history)
    (isOne : name? one = some name)
    (isTwo : name? two = some name) :
    one = two := by
  induction history with
  | nil =>
      cases inOne
  | cons entry rest inductionHypothesis =>
      have tail : (rest.filterMap name?).Nodup :=
        once.sublist ((List.sublist_cons_self entry rest).filterMap name?)
      have apart :
          name? entry = some name → ∀ other ∈ rest, name? other ≠ some name := by
        intro isEntry other member isOther
        simp only [List.filterMap_cons, isEntry, List.nodup_cons] at once
        exact once.1 (List.mem_filterMap.mpr ⟨other, member, isOther⟩)
      rcases List.mem_cons.mp inOne with rfl | oneLater <;>
        rcases List.mem_cons.mp inTwo with rfl | twoLater
      · rfl
      · exact (apart isOne two twoLater isTwo).elim
      · exact (apart isTwo one oneLater isOne).elim
      · exact inductionHypothesis tail oneLater twoLater

/-- Entries whose numbers are all the greatest one come last in a sorted history. -/
private theorem split_last
    (number : α → Nat)
    (greatest : Nat)
    {history : List α}
    (sorted : (history.map number).Pairwise (· ≤ ·))
    (bounded : ∀ entry ∈ history, number entry ≤ greatest) :
    history =
      history.filter (fun entry => decide (number entry < greatest)) ++
        history.filter (fun entry => decide (number entry = greatest)) := by
  induction history with
  | nil =>
      rfl
  | cons entry rest inductionHypothesis =>
      simp only [List.map_cons, List.pairwise_cons] at sorted
      have restSplit :=
        inductionHypothesis sorted.2
          (fun other member => bounded other (List.mem_cons_of_mem _ member))
      have entryBounded := bounded entry (by simp)
      by_cases below : number entry < greatest
      · have notGreatest : number entry ≠ greatest := by
          omega
        simp only [List.filter_cons, below, notGreatest,
          decide_true, decide_false, ↓reduceIte, Bool.false_eq_true,
          List.cons_append]
        exact congrArg (List.cons entry) restSplit
      · have isGreatest : number entry = greatest := by
          omega
        have allGreatest :
            ∀ other ∈ rest, number other = greatest := by
          intro other member
          have above :=
            sorted.1 (number other) (List.mem_map_of_mem member)
          have otherBounded :=
            bounded other (List.mem_cons_of_mem _ member)
          omega
        have noneBelow :
            rest.filter (fun other => decide (number other < greatest)) =
              [] := by
          rw [List.filter_eq_nil_iff]
          intro other member
          simp [allGreatest other member]
        have allKept :
            rest.filter (fun other => decide (number other = greatest)) =
              rest := by
          rw [List.filter_eq_self]
          intro other member
          simp [allGreatest other member]
        simp [isGreatest, noneBelow, allKept]

/--
A history sorted by number is the concatenation, in the order of the numbers,
of its entries with each number.
-/
theorem eq_flatMap_range_of_sorted
    (number : α → Nat)
    (count : Nat)
    {history : List α}
    (sorted : (history.map number).Pairwise (· ≤ ·))
    (bounded : ∀ entry ∈ history, number entry < count) :
    history =
      (List.range count).flatMap fun index =>
        history.filter (fun entry => decide (number entry = index)) := by
  induction count generalizing history with
  | zero =>
      have empty : history = [] := by
        rw [List.eq_nil_iff_forall_not_mem]
        intro entry member
        exact Nat.not_lt_zero _ (bounded entry member)
      simp [empty]
  | succ greatest inductionHypothesis =>
      have split :=
        split_last number greatest sorted
          (fun entry member => Nat.le_of_lt_succ (bounded entry member))
      have lowerSorted :
          ((history.filter
            (fun entry => decide (number entry < greatest))).map
              number).Pairwise (· ≤ ·) :=
        sorted.sublist (List.filter_sublist.map number)
      have lower :=
        inductionHypothesis lowerSorted (by simp)
      have lowerParts :
          ((List.range greatest).flatMap fun index =>
              (history.filter
                (fun entry => decide (number entry < greatest))).filter
                  (fun entry => decide (number entry = index))) =
            (List.range greatest).flatMap fun index =>
              history.filter
                (fun entry => decide (number entry = index)) := by
        apply List.flatMap_congr
        intro index member
        rw [List.filter_filter]
        apply List.filter_congr
        intro entry _
        have := List.mem_range.mp member
        by_cases same : number entry = index
        · simp [same, this]
        · simp [same]
      rw [List.range_succ, List.flatMap_append, ← lowerParts, ← lower]
      simpa using split

end History
