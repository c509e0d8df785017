import Mathlib.Data.List.TakeWhile
import Mathlib.Data.List.Infix

namespace ItemUpload

/-!
# Uploading items in order

A list of items is sent as chunks.  Some items are sent as a whole; the others are
streamed: they are opened, their data come later, in any number of chunks, and
sending goes on when they are finished.  A trailer ends the upload.
-/

/-- How items are turned into chunks. -/
structure Plan (Item Data Chunk : Type) where
  isStreamed : Item → Bool
  /-- What is sent when an item is reached. -/
  opening : Item → List Chunk
  /-- What is sent of the data of an item that is streamed. -/
  data : Data → Chunk
  trailer : Chunk

namespace Plan

variable {Item Data Chunk : Type}

/-! ## What is to be sent -/

/-- The items in order, the data of each one behind its opening. -/
inductive Body (plan : Plan Item Data Chunk) : List Item → List Chunk → Prop where
  | nil : Body plan [] []
  | whole {item : Item} {items : List Item} {chunks : List Chunk} :
      plan.isStreamed item = false →
      Body plan items chunks →
      Body plan (item :: items) (plan.opening item ++ chunks)
  | streamed {item : Item} {items : List Item} {chunks : List Chunk}
      (data : List Data) :
      plan.isStreamed item = true →
      Body plan items chunks →
      Body plan (item :: items)
        (plan.opening item ++ data.map plan.data ++ chunks)

/-- A complete upload. -/
def Full
    (plan : Plan Item Data Chunk)
    (items : List Item)
    (chunks : List Chunk) :
    Prop :=
  ∃ body, plan.Body items body ∧ chunks = body ++ [plan.trailer]

/-! ## How it is sent -/

/-- The items that are sent before the first one that is streamed. -/
def front (plan : Plan Item Data Chunk) (items : List Item) : List Item :=
  items.takeWhile fun item => !plan.isStreamed item

/-- The first item that is streamed, and all behind it. -/
def back (plan : Plan Item Data Chunk) (items : List Item) : List Item :=
  items.dropWhile fun item => !plan.isStreamed item

/-- What is sent until an item has to be streamed, or to the end. -/
def passage (plan : Plan Item Data Chunk) (items : List Item) : List Chunk :=
  (plan.front items).flatMap plan.opening ++
    match plan.back items with
    | item :: _ => plan.opening item
    | [] => [plan.trailer]

/-- The item that is streamed then, if there is one. -/
def stop (plan : Plan Item Data Chunk) (items : List Item) (index : Nat) :
    Option Nat :=
  match plan.back (items.drop index) with
  | _ :: _ => some (index + (plan.front (items.drop index)).length)
  | [] => none

/-- What has been sent while an item is streamed, or in the end. -/
inductive Sent (plan : Plan Item Data Chunk) (items : List Item) :
    Option Nat → List Chunk → Prop where
  | start : Sent plan items (plan.stop items 0) (plan.passage items)
  | data {index : Nat} {chunks : List Chunk} (data : Data) :
      Sent plan items (some index) chunks →
      Sent plan items (some index) (chunks ++ [plan.data data])
  | resume {index : Nat} {chunks : List Chunk} :
      Sent plan items (some index) chunks →
      Sent plan items (plan.stop items (index + 1))
        (chunks ++ plan.passage (items.drop (index + 1)))

/-! ## What has been sent is in order -/

section

variable {plan : Plan Item Data Chunk} {items : List Item}

theorem Body.append
    {first second : List Item}
    {one two : List Chunk}
    (early : plan.Body first one)
    (late : plan.Body second two) :
    plan.Body (first ++ second) (one ++ two) := by
  induction early with
  | nil =>
      exact late
  | whole isWhole _ inductionHypothesis =>
      rw [List.cons_append, List.append_assoc]
      exact .whole isWhole inductionHypothesis
  | streamed data isStreamed _ inductionHypothesis =>
      rw [List.cons_append, List.append_assoc]
      exact .streamed data isStreamed inductionHypothesis

/-- Items that are sent as a whole. -/
theorem body_of_whole
    (areWhole : ∀ item ∈ items, plan.isStreamed item = false) :
    plan.Body items (items.flatMap plan.opening) := by
  induction items with
  | nil =>
      exact .nil
  | cons item rest inductionHypothesis =>
      rw [List.flatMap_cons]
      exact .whole (areWhole item List.mem_cons_self)
        (inductionHypothesis fun other member =>
          areWhole other (List.mem_cons_of_mem item member))

/-- Every list of items can be sent. -/
theorem exists_body (plan : Plan Item Data Chunk) (items : List Item) :
    ∃ chunks, plan.Body items chunks := by
  induction items with
  | nil =>
      exact ⟨[], .nil⟩
  | cons item rest inductionHypothesis =>
      obtain ⟨chunks, body⟩ := inductionHypothesis
      cases isStreamed : plan.isStreamed item with
      | false =>
          exact ⟨_, .whole isStreamed body⟩
      | true =>
          exact ⟨_, .streamed [] isStreamed body⟩

/-- An item is streamed, and what has been sent is what comes before its end. -/
def Streams
    (plan : Plan Item Data Chunk)
    (items : List Item)
    (index : Nat)
    (chunks : List Chunk) :
    Prop :=
  ∃ (first : List Item) (item : Item) (rest : List Item) (body : List Chunk)
      (data : List Data),
    items = first ++ item :: rest ∧
      first.length = index ∧
      plan.isStreamed item = true ∧
      plan.Body first body ∧
      chunks = body ++ plan.opening item ++ data.map plan.data

/-- The upload is complete, or it is at an item. -/
def Reaches
    (plan : Plan Item Data Chunk)
    (items : List Item) :
    Option Nat → List Chunk → Prop
  | none, chunks => plan.Full items chunks
  | some index, chunks => plan.Streams items index chunks

theorem front_append_back (plan : Plan Item Data Chunk) (items : List Item) :
    plan.front items ++ plan.back items = items :=
  List.takeWhile_append_dropWhile

theorem isStreamed_of_front
    {item : Item}
    (member : item ∈ plan.front items) :
    plan.isStreamed item = false := by
  simpa using List.mem_takeWhile_imp member

theorem isStreamed_of_back
    {item : Item}
    {rest : List Item}
    (shape : plan.back items = item :: rest) :
    plan.isStreamed item = true := by
  have stopped :=
    List.head?_dropWhile_not (fun item => !plan.isStreamed item) items
  have first : (items.dropWhile fun item => !plan.isStreamed item).head? = some item := by
    rw [show (items.dropWhile fun item => !plan.isStreamed item) = item :: rest
      from shape]
    rfl
  rw [first] at stopped
  simpa using stopped

/-- No item is streamed between a place and the one where sending stops. -/
theorem isStreamed_of_before_stop
    {index place : Nat}
    {item : Item}
    (isItem : items[place]? = some item)
    (behind : index ≤ place)
    (before : ∀ last ∈ plan.stop items index, place < last) :
    plan.isStreamed item = false := by
  obtain ⟨gap, rfl⟩ := Nat.exists_eq_add_of_le behind
  have split := plan.front_append_back (items.drop index)
  have inRest : (items.drop index)[gap]? = some item := by
    rw [List.getElem?_drop]
    exact isItem
  have inFront : gap < (plan.front (items.drop index)).length := by
    unfold stop at before
    cases shape : plan.back (items.drop index) with
    | nil =>
        rw [shape, List.append_nil] at split
        rw [split]
        exact (List.getElem?_eq_some_iff.mp inRest).1
    | cons other rest =>
        rw [shape] at before
        have isBefore := before _ rfl
        omega
  rw [← split, List.getElem?_append_left inFront] at inRest
  exact isStreamed_of_front (List.mem_of_getElem? inRest)

/-- Sending stops at an item that is streamed. -/
theorem isStreamed_of_stop
    {index place : Nat}
    (stops : plan.stop items index = some place) :
    index ≤ place ∧
      ∃ item, items[place]? = some item ∧ plan.isStreamed item = true := by
  unfold stop at stops
  cases shape : plan.back (items.drop index) with
  | nil =>
      rw [shape] at stops
      cases stops
  | cons item rest =>
      rw [shape] at stops
      cases stops
      refine ⟨Nat.le_add_right _ _, item, ?_, isStreamed_of_back shape⟩
      have split := plan.front_append_back (items.drop index)
      rw [shape] at split
      generalize plan.front (items.drop index) = passed at split ⊢
      rw [← List.getElem?_drop, ← split, List.getElem?_append_right (le_refl _),
        Nat.sub_self, List.getElem?_cons_zero]

/-- Sending goes on behind items that have been sent. -/
theorem reaches_passage
    {first rest : List Item}
    {chunks : List Chunk}
    (isItems : items = first ++ rest)
    (body : plan.Body first chunks) :
    plan.Reaches items (plan.stop items first.length)
      (chunks ++ plan.passage rest) := by
  have isRest : items.drop first.length = rest := by
    rw [isItems, List.drop_left]
  have split := plan.front_append_back rest
  have isWhole : plan.Body (plan.front rest) ((plan.front rest).flatMap plan.opening) :=
    body_of_whole fun _ => isStreamed_of_front
  have isBody := body.append isWhole
  unfold stop passage
  rw [isRest]
  cases shape : plan.back rest with
  | nil =>
      rw [shape, List.append_nil] at split
      rw [split, ← isItems] at isBody
      exact ⟨_, isBody, by rw [split, List.append_assoc]⟩
  | cons item others =>
      rw [shape] at split
      refine ⟨first ++ plan.front rest, item, others, _, [], ?_, by simp,
        isStreamed_of_back shape, isBody, by simp⟩
      rw [isItems, List.append_assoc, split]

/-- What has been sent is in order. -/
theorem Sent.reaches
    {position : Option Nat}
    {chunks : List Chunk}
    (sent : plan.Sent items position chunks) :
    plan.Reaches items position chunks := by
  induction sent with
  | start =>
      have reaches := reaches_passage (rfl : items = [] ++ items) (.nil : plan.Body [] [])
      simpa using reaches
  | data value _ inductionHypothesis =>
      obtain ⟨first, item, rest, body, earlier, isItems, isLength, isStreamed,
        isBody, rfl⟩ := inductionHypothesis
      refine ⟨first, item, rest, body, earlier ++ [value], isItems, isLength,
        isStreamed, isBody, ?_⟩
      simp
  | @resume index chunks _ inductionHypothesis =>
      obtain ⟨first, item, rest, body, data, isItems, isLength, isStreamed, isBody,
        rfl⟩ := inductionHypothesis
      have passed : plan.Body (first ++ [item])
          (body ++ plan.opening item ++ data.map plan.data) := by
        have one := Body.streamed data isStreamed (.nil : plan.Body [] [])
        rw [List.append_nil] at one
        rw [List.append_assoc]
        exact isBody.append one
      have isSplit : items = (first ++ [item]) ++ rest := by
        rw [isItems]
        simp
      have reaches := reaches_passage isSplit passed
      have isIndex : (first ++ [item]).length = index + 1 := by
        simp [isLength]
      have isRest : items.drop (index + 1) = rest := by
        rw [← isIndex, isSplit, List.drop_left]
      rwa [isIndex, ← isRest] at reaches

/-- What has been sent is a part of a complete upload. -/
theorem Sent.isPrefix
    {position : Option Nat}
    {chunks : List Chunk}
    (sent : plan.Sent items position chunks) :
    ∃ full, plan.Full items full ∧ chunks <+: full := by
  have reaches := sent.reaches
  cases position with
  | none =>
      exact ⟨chunks, reaches, List.prefix_rfl⟩
  | some index =>
      obtain ⟨first, item, rest, body, data, rfl, _, isStreamed, isBody, rfl⟩ :=
        reaches
      obtain ⟨others, isOthers⟩ := plan.exists_body rest
      refine ⟨_, ⟨_, isBody.append (.streamed data isStreamed isOthers), rfl⟩,
        others ++ [plan.trailer], ?_⟩
      simp

/-! ## The trailer -/

/-- The trailer is told apart from what is sent of the items. -/
structure Separate (plan : Plan Item Data Chunk) : Prop where
  opening : ∀ item, plan.trailer ∉ plan.opening item
  data : ∀ data, plan.data data ≠ plan.trailer

theorem Body.trailer
    {chunks : List Chunk}
    (body : plan.Body items chunks)
    (separate : plan.Separate) :
    plan.trailer ∉ chunks := by
  induction body with
  | nil =>
      simp
  | whole _ _ inductionHypothesis =>
      simp [separate.opening, inductionHypothesis]
  | streamed data _ _ inductionHypothesis =>
      simp [separate.opening, separate.data, inductionHypothesis]

/-- The trailer has been sent in the end, and not before. -/
theorem Sent.trailer_iff
    {position : Option Nat}
    {chunks : List Chunk}
    (sent : plan.Sent items position chunks)
    (separate : plan.Separate) :
    plan.trailer ∈ chunks ↔ position = none := by
  have reaches := sent.reaches
  cases position with
  | none =>
      obtain ⟨body, _, rfl⟩ := reaches
      simp
  | some index =>
      obtain ⟨_, item, _, body, data, _, _, _, isBody, rfl⟩ := reaches
      simp [isBody.trailer separate, separate.opening, separate.data]

/-- The upload is complete in the end, and not before. -/
theorem Sent.full_iff
    {position : Option Nat}
    {chunks : List Chunk}
    (sent : plan.Sent items position chunks)
    (separate : plan.Separate) :
    plan.Full items chunks ↔ position = none := by
  constructor
  · rintro ⟨body, _, rfl⟩
    exact (sent.trailer_iff separate).mp (by simp)
  · rintro rfl
    exact sent.reaches

end

/-! ## Uploads of known data -/

section Known

variable {Item Atom Chunk : Type} {plan : Plan Item (List Atom) Chunk}

/-- What has been sent while the streamed items deliver these data, by places. -/
inductive Delivered
    (plan : Plan Item (List Atom) Chunk)
    (reads : Nat → List Atom)
    (items : List Item) :
    Option Nat → List Atom → List Chunk → Prop where
  | start : Delivered plan reads items (plan.stop items 0) [] (plan.passage items)
  | data {index : Nat} {sofar : List Atom} {chunks : List Chunk}
      (data : List Atom) :
      Delivered plan reads items (some index) sofar chunks →
      Delivered plan reads items (some index) (sofar ++ data)
        (chunks ++ [plan.data data])
  | resume {index : Nat} {chunks : List Chunk} :
      Delivered plan reads items (some index) (reads index) chunks →
      Delivered plan reads items (plan.stop items (index + 1)) []
        (chunks ++ plan.passage (items.drop (index + 1)))

theorem Delivered.sent
    {reads : Nat → List Atom}
    {items : List Item}
    {position : Option Nat}
    {sofar : List Atom}
    {chunks : List Chunk}
    (delivered : plan.Delivered reads items position sofar chunks) :
    plan.Sent items position chunks := by
  induction delivered with
  | start =>
      exact .start
  | data value _ inductionHypothesis =>
      exact .data value inductionHypothesis
  | resume _ inductionHypothesis =>
      exact .resume inductionHypothesis

/--
Chunks are cut in parts, data in single atoms, so that it does not matter how the
data of an item have been divided; and behind them comes something else.
-/
structure Cuts
    (plan : Plan Item (List Atom) Chunk)
    (cut : Chunk → List Chunk) : Prop where
  data : ∀ data, cut (plan.data data) = data.map fun atom => plan.data [atom]
  distinct : ∀ one two, plan.data [one] = plan.data [two] → one = two
  opening :
    ∀ item, ∃ first rest,
      (plan.opening item).flatMap cut = first :: rest ∧
        ∀ atom, first ≠ plan.data [atom]
  trailer :
    ∃ first rest,
      cut plan.trailer = first :: rest ∧ ∀ atom, first ≠ plan.data [atom]

/-- The parts of the items from a place on, and of the trailer. -/
def content
    (plan : Plan Item (List Atom) Chunk)
    (cut : Chunk → List Chunk)
    (reads : Nat → List Atom) :
    Nat → List Item → List Chunk
  | _, [] => cut plan.trailer
  | index, item :: rest =>
      (plan.opening item).flatMap cut ++
        (if plan.isStreamed item then cut (plan.data (reads index)) else []) ++
        content plan cut reads (index + 1) rest

variable {cut : Chunk → List Chunk}

/-- The passage to the next streamed item is a part of the content. -/
theorem content_passage
    (plan : Plan Item (List Atom) Chunk)
    (cut : Chunk → List Chunk)
    (reads : Nat → List Atom)
    (items : List Item)
    (index : Nat) :
    plan.content cut reads index items =
      (plan.passage items).flatMap cut ++
        match plan.back items with
        | [] => []
        | _ :: rest =>
            cut (plan.data (reads (index + (plan.front items).length))) ++
              plan.content cut reads (index + (plan.front items).length + 1)
                rest := by
  induction items generalizing index with
  | nil =>
      simp [content, passage, front, back]
  | cons item rest inductionHypothesis =>
      cases isStreamed : plan.isStreamed item with
      | true =>
          simp [content, passage, front, back, isStreamed]
      | false =>
          have next := inductionHypothesis (index + 1)
          have isFront : plan.front (item :: rest) = item :: plan.front rest := by
            simp [front, isStreamed]
          have isBack : plan.back (item :: rest) = plan.back rest := by
            simp [back, isStreamed]
          have isPassage :
              plan.passage (item :: rest) =
                plan.opening item ++ plan.passage rest := by
            simp only [passage, isFront, isBack, List.flatMap_cons,
              List.append_assoc]
          have shifted :
              index + (item :: plan.front rest).length =
                index + 1 + (plan.front rest).length := by
            simp only [List.length_cons]
            omega
          rw [content, isPassage, isFront, isBack, shifted, List.flatMap_append,
            next]
          simp [isStreamed]

theorem drop_of_back
    {items rest : List Item}
    {item : Item}
    (shape : plan.back items = item :: rest) :
    items.drop ((plan.front items).length + 1) = rest := by
  have split := plan.front_append_back items
  rw [shape] at split
  have isBack : items.drop (plan.front items).length = item :: rest :=
    calc
      items.drop (plan.front items).length =
          (plan.front items ++ item :: rest).drop (plan.front items).length := by
        rw [split]
      _ = item :: rest := List.drop_left
  rw [← List.drop_drop, isBack]
  rfl

/-- What has been sent is the content, up to the data that are still to come. -/
def Covers
    (plan : Plan Item (List Atom) Chunk)
    (cut : Chunk → List Chunk)
    (reads : Nat → List Atom)
    (items : List Item) :
    Option Nat → List Atom → List Chunk → Prop
  | none, _, chunks => chunks.flatMap cut = plan.content cut reads 0 items
  | some index, sofar, chunks =>
      ∃ before,
        chunks.flatMap cut = before ++ cut (plan.data sofar) ∧
          plan.content cut reads 0 items =
            before ++ cut (plan.data (reads index)) ++
              plan.content cut reads (index + 1) (items.drop (index + 1))

theorem covers_passage
    {reads : Nat → List Atom}
    {items : List Item}
    {chunks : List Chunk}
    (cuts : plan.Cuts cut)
    (index : Nat)
    (sent :
      plan.content cut reads 0 items =
        chunks.flatMap cut ++ plan.content cut reads index (items.drop index)) :
    plan.Covers cut reads items (plan.stop items index) []
      (chunks ++ plan.passage (items.drop index)) := by
  rw [content_passage plan cut reads (items.drop index) index] at sent
  unfold stop
  cases shape : plan.back (items.drop index) with
  | nil =>
      rw [shape, List.append_nil] at sent
      simpa [Covers] using sent.symm
  | cons item rest =>
      rw [shape] at sent
      refine ⟨(chunks ++ plan.passage (items.drop index)).flatMap cut, ?_, ?_⟩
      · simp [cuts.data]
      · have isRest :
            items.drop (index + (plan.front (items.drop index)).length + 1) =
              rest := by
          rw [← drop_of_back shape, List.drop_drop, Nat.add_assoc]
        rw [sent, isRest]
        simp

/-- Whatever has been sent covers a part of the content. -/
theorem Delivered.covers
    {reads : Nat → List Atom}
    {items : List Item}
    {position : Option Nat}
    {sofar : List Atom}
    {chunks : List Chunk}
    (delivered : plan.Delivered reads items position sofar chunks)
    (cuts : plan.Cuts cut) :
    plan.Covers cut reads items position sofar chunks := by
  induction delivered with
  | start =>
      have passes : plan.content cut reads 0 items =
          ([] : List Chunk).flatMap cut ++ plan.content cut reads 0 (items.drop 0) :=
        rfl
      exact covers_passage cuts 0 passes
  | data value _ inductionHypothesis =>
      obtain ⟨before, isSent, isContent⟩ := inductionHypothesis
      refine ⟨before, ?_, isContent⟩
      simp [isSent, cuts.data]
  | @resume index chunks _ inductionHypothesis =>
      obtain ⟨before, isSent, isContent⟩ := inductionHypothesis
      refine covers_passage cuts (index + 1) ?_
      rw [isContent, isSent]

/-- Data end where something else begins. -/
theorem eq_of_data_append
    {one two : List Atom}
    {first second : Chunk}
    {left right : List Chunk}
    (cuts : plan.Cuts cut)
    (firstOther : ∀ atom, first ≠ plan.data [atom])
    (secondOther : ∀ atom, second ≠ plan.data [atom])
    (same :
      cut (plan.data one) ++ first :: left =
        cut (plan.data two) ++ second :: right) :
    one = two ∧ first :: left = second :: right := by
  simp only [cuts.data] at same
  induction one generalizing two with
  | nil =>
      cases two with
      | nil =>
          exact ⟨rfl, same⟩
      | cons atom rest =>
          exact (firstOther atom (List.cons.inj same).1).elim
  | cons atom rest inductionHypothesis =>
      cases two with
      | nil =>
          exact (secondOther atom (List.cons.inj same).1.symm).elim
      | cons other others =>
          obtain ⟨sameAtom, sameRest⟩ := List.cons.inj same
          obtain ⟨rfl, sameEnd⟩ := inductionHypothesis sameRest
          exact ⟨congrArg (· :: rest) (cuts.distinct _ _ sameAtom), sameEnd⟩

theorem content_begins
    (cuts : plan.Cuts cut)
    (reads : Nat → List Atom)
    (index : Nat)
    (items : List Item) :
    ∃ first rest,
      plan.content cut reads index items = first :: rest ∧
        ∀ atom, first ≠ plan.data [atom] := by
  cases items with
  | nil =>
      exact cuts.trailer
  | cons item others =>
      obtain ⟨first, rest, shape, other⟩ := cuts.opening item
      exact ⟨first, _, by rw [content, shape]; rfl, other⟩

/-- Equal contents have been made of equal data. -/
theorem content_injective
    {one two : Nat → List Atom}
    {index : Nat}
    {items : List Item}
    (cuts : plan.Cuts cut)
    (same :
      plan.content cut one index items = plan.content cut two index items) :
    ∀ place item,
      items[place]? = some item →
      plan.isStreamed item = true →
      one (index + place) = two (index + place) := by
  induction items generalizing index with
  | nil =>
      intro place item isItem
      cases isItem
  | cons first rest inductionHypothesis =>
      simp only [content, List.append_assoc] at same
      have sameBehind := List.append_cancel_left same
      obtain ⟨left, others, isLeft, leftOther⟩ :=
        content_begins cuts one (index + 1) rest
      obtain ⟨right, more, isRight, rightOther⟩ :=
        content_begins cuts two (index + 1) rest
      have parts :
          (plan.isStreamed first = true → one index = two index) ∧
            plan.content cut one (index + 1) rest =
              plan.content cut two (index + 1) rest := by
        cases streams : plan.isStreamed first with
        | false =>
            simp only [streams, Bool.false_eq_true, ↓reduceIte,
              List.nil_append] at sameBehind
            exact ⟨by simp, sameBehind⟩
        | true =>
            simp only [streams, ↓reduceIte, isLeft, isRight] at sameBehind
            obtain ⟨sameData, sameRest⟩ :=
              eq_of_data_append cuts leftOther rightOther sameBehind
            rw [isLeft, isRight]
            exact ⟨fun _ => sameData, sameRest⟩
      intro place item isItem streams
      cases place with
      | zero =>
          rw [List.getElem?_cons_zero, Option.some.injEq] at isItem
          subst isItem
          exact parts.1 streams
      | succ place =>
          rw [List.getElem?_cons_succ] at isItem
          have later := inductionHypothesis parts.2 place item isItem streams
          rwa [Nat.add_assoc, Nat.add_comm 1] at later

/-- Equal data make equal contents. -/
theorem content_congr
    {one two : Nat → List Atom}
    {index : Nat}
    {items : List Item}
    (same :
      ∀ place item,
        items[place]? = some item →
        plan.isStreamed item = true →
        one (index + place) = two (index + place)) :
    plan.content cut one index items = plan.content cut two index items := by
  induction items generalizing index with
  | nil =>
      rfl
  | cons first rest inductionHypothesis =>
      have behind :
          plan.content cut one (index + 1) rest =
            plan.content cut two (index + 1) rest := by
        refine inductionHypothesis fun place item isItem streams => ?_
        have later := same (place + 1) item (by simpa using isItem) streams
        rwa [← Nat.add_assoc, Nat.add_right_comm] at later
      simp only [content, behind]
      cases streams : plan.isStreamed first with
      | false =>
          rfl
      | true =>
          have here : one index = two index := same 0 first rfl streams
          rw [here]

end Known

end Plan

end ItemUpload
