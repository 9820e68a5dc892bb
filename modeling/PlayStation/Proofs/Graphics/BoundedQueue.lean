import PlayStation.Proofs.Graphics.CommandInProgress
import PlayStation.Proofs.Trace

/-!
# The word queue is a bounded list

What can be done to the word queue (`WordQueue.perform`), and what the same does to a list of
words that has a limit (`ListQueue.perform`).  Every operation answers alike on both and
leaves the queue with the words of the list (`WordQueue.perform_eq_listQueue`), so no sequence
of operations tells them apart (`queue_is_bounded_list`).

The ring keeps the place behind the newest word and finds the oldest one by counting back.
While words leave, the count shrinks and the head moves on with it; it stays among the slots,
and the words found there are those of the list (`WordQueue.LaidOut`,
`WordQueue.takeEach?_eq_dequeue?`).
-/

namespace PlayStation

/-- How full a queue is. -/
structure QueueFill where
  length : Nat
  empty : Bool
  full : Bool
  deriving DecidableEq, Repr

namespace WordQueue

/-- What can be done to the queue. -/
inductive Operation where
  | enqueue (word : UInt32)
  | dequeue (n : Nat)
  | clear
  | front
  | opcode
  deriving DecidableEq, Repr

/-- What an operation returns. -/
inductive Answer where
  | accepted (done : Bool)
  | taken (words : Option (List UInt32))
  | done
  | front (word : Option UInt32)
  | opcode (value : Option UInt8)
  deriving DecidableEq, Repr

/-- Carries out an operation.  What is refused leaves the queue as it is. -/
def perform (q : WordQueue) : Operation → Answer × WordQueue
  | .enqueue word =>
      match q.enqueue? word with
      | some q => (.accepted true, q)
      | none => (.accepted false, q)
  | .dequeue n =>
      match q.dequeue? n with
      | some (words, q) => (.taken (some words), q)
      | none => (.taken none, q)
  | .clear => (.done, q.clear)
  | .front => (.front q.front?, q)
  | .opcode => (.opcode q.opcode?, q)

/-- What a sequence of operations leaves. -/
def performAll (q : WordQueue) (operations : List Operation) : WordQueue :=
  operations.foldl (fun q operation => (q.perform operation).2) q

def fill (q : WordQueue) : QueueFill :=
  ⟨q.count, q.isEmpty, q.isFull⟩

end WordQueue

namespace ListQueue

/-- Carries out an operation on the list of the words, the oldest first. -/
def perform (words : List UInt32) : WordQueue.Operation → WordQueue.Answer × List UInt32
  | .enqueue word =>
      if words.length = WordQueue.capacity then (.accepted false, words)
      else (.accepted true, words ++ [word])
  | .dequeue n =>
      if n ≤ words.length then (.taken (some (words.take n)), words.drop n)
      else (.taken none, words)
  | .clear => (.done, [])
  | .front => (.front words.head?, words)
  | .opcode => (.opcode (words.head?.map opcodeOf), words)

/-- What a sequence of operations leaves. -/
def performAll (words : List UInt32) (operations : List WordQueue.Operation) : List UInt32 :=
  operations.foldl (fun words operation => (perform words operation).2) words

def fill (words : List UInt32) : QueueFill :=
  ⟨words.length, words.isEmpty, words.length == WordQueue.capacity⟩

end ListQueue

namespace WordQueue

/-! ## One operation -/

/-- The front is the first word of the list. -/
theorem front?_eq_head? (q : WordQueue) : q.front? = q.toList.head? := by
  cases hwords : q.toList with
  | nil =>
      have hempty : q.isEmpty = true := by rw [isEmpty, count_eq_length hwords]; rfl
      rw [front?, if_pos hempty, List.head?_nil]
  | cons first rest =>
      have hcount : q.count = rest.length + 1 := count_eq_length hwords
      have hempty : ¬ q.isEmpty = true := by rw [isEmpty, hcount]; simp
      have hhead : q.oldest 1 = [first] := by
        rw [oldest_eq_take (by omega), hwords]
        rfl
      have hpeek : q.peek 0 = first := List.head_eq_of_cons_eq hhead
      rw [front?, if_neg hempty, hpeek, List.head?_cons]

/-- As many words as there are can be taken, from the front of the list. -/
theorem dequeue?_of_le {q : WordQueue} {n : Nat} (h : n ≤ q.count) :
    ∃ q', q.dequeue? n = some (q.toList.take n, q') ∧ q'.toList = q.toList.drop n := by
  have htake : q.dequeue? n = some (q.oldest n, _) := dif_pos h
  refine ⟨_, htake.trans (by rw [oldest_eq_take h]), ?_⟩
  have hall := toList_dequeue? htake
  rw [oldest_eq_take h] at hall
  exact List.append_cancel_left (hall.trans (List.take_append_drop n q.toList).symm)

/-- **One operation** answers as it does on the list of the words, and leaves the words that
it leaves there. -/
theorem perform_eq_listQueue (q : WordQueue) (operation : Operation) :
    (q.perform operation).1 = (ListQueue.perform q.toList operation).1 ∧
      (q.perform operation).2.toList = (ListQueue.perform q.toList operation).2 := by
  cases operation with
  | enqueue word =>
      dsimp only [perform, ListQueue.perform]
      rw [length_toList]
      rcases hpush : q.enqueue? word with _ | q'
      · rw [if_pos (enqueue?_eq_none_iff.mp hpush)]
        exact ⟨rfl, rfl⟩
      · have hroom : ¬ q.count = capacity := fun hfull =>
          nomatch hpush.symm.trans (enqueue?_eq_none_iff.mpr hfull)
        rw [if_neg hroom]
        exact ⟨rfl, toList_enqueue? hpush⟩
  | dequeue n =>
      dsimp only [perform, ListQueue.perform]
      rw [length_toList]
      by_cases hn : n ≤ q.count
      · obtain ⟨q', htake, hrest⟩ := dequeue?_of_le hn
        rw [htake, if_pos hn]
        exact ⟨rfl, hrest⟩
      · have hshort : q.dequeue? n = none := dif_neg hn
        rw [hshort, if_neg hn]
        exact ⟨rfl, rfl⟩
  | clear => exact ⟨rfl, q.toList_clear⟩
  | front => exact ⟨congrArg Answer.front q.front?_eq_head?, rfl⟩
  | opcode =>
      have hopcode : q.opcode? = q.toList.head?.map opcodeOf := by
        rw [← front?_eq_head?]
        rfl
      exact ⟨congrArg Answer.opcode hopcode, rfl⟩

/-- The queue is full or empty, or neither, as the list of its words is. -/
theorem fill_eq_listQueue (q : WordQueue) : q.fill = ListQueue.fill q.toList := by
  have hempty : q.isEmpty = q.toList.isEmpty := by
    rw [isEmpty, ← length_toList]
    cases q.toList <;> rfl
  rw [fill, ListQueue.fill, hempty, isFull, length_toList]

/-- **A sequence of operations** leaves the words that it leaves in the list. -/
theorem toList_performAll (q : WordQueue) (operations : List Operation) :
    (q.performAll operations).toList = ListQueue.performAll q.toList operations := by
  induction operations generalizing q with
  | nil => rfl
  | cons operation later ih =>
      change ((q.perform operation).2.performAll later).toList =
        ListQueue.performAll (ListQueue.perform q.toList operation).2 later
      rw [ih, (q.perform_eq_listQueue operation).2]

/-! ## The slots of the words -/

/-- The slot of the oldest word. -/
def head (q : WordQueue) : Nat :=
  (q.next.val + capacity - q.count) % capacity

/-- The queue without its `n` oldest words. -/
def without (q : WordQueue) (n : Nat) : WordQueue :=
  { q with count := q.count - n, count_le := by have := q.count_le; omega }

/-- How the words of a list stand in the slots: each is where the head is once the words
before it have left. -/
structure LaidOut (q : WordQueue) (words : List UInt32) : Prop where
  count : q.count = words.length
  slot : ∀ n (hn : n < words.length), q.slots[(q.without n).head]? = some words[n]

/-- Takes `n` words one at a time, each from the slot that is the head by then.  A head
outside the storage would give none. -/
def takeEach? : (n : Nat) → (q : WordQueue) → Option (List UInt32 × WordQueue)
  | 0, q => some ([], q)
  | n + 1, q =>
      match q.slots[q.head]?, takeEach? n (q.without 1) with
      | some word, some (words, q) => some (word :: words, q)
      | _, _ => none

/-- The read position stays inside the ring. -/
theorem head_lt (q : WordQueue) : q.head < 16 :=
  Nat.mod_lt _ (by decide)

/-- The oldest word is where the read position points. -/
theorem slots_head (q : WordQueue) : q.slots[q.head]? = some (q.peek 0) :=
  Vector.getElem?_eq_getElem q.head_lt

/-- After `m` words are taken, what was `m` places behind is next. -/
theorem peek_without (q : WordQueue) {m n : Nat} (h : m ≤ q.count) :
    (q.without m).peek n = q.peek (m + n) := by
  have hcount := q.count_le
  simp only [peek, without]
  congr 1
  omega

/-- A queue is laid out as the list of its words. -/
theorem laidOut_toList (q : WordQueue) : q.LaidOut q.toList where
  count := q.length_toList.symm
  slot := by
    intro n hn
    have hcount : n < q.count := q.length_toList ▸ hn
    have hword : q.toList[n] = q.peek n := by
      simp only [toList, oldest, List.getElem_map, List.getElem_range]
    rw [hword]
    exact (slots_head _).trans (congrArg some (q.peek_without (Nat.le_of_lt hcount)))

/-- Words that leave one at a time are those that leave together. -/
theorem takeEach?_eq_dequeue? (q : WordQueue) {n : Nat} (hn : n ≤ q.count) :
    takeEach? n q = q.dequeue? n := by
  have htake : q.dequeue? n = some (q.oldest n, q.without n) := dif_pos hn
  rw [htake]
  clear htake
  induction n generalizing q with
  | zero => rfl
  | succ n ih =>
      have hrest := ih (q.without 1) (by dsimp only [without]; omega)
      have holdest : q.oldest (n + 1) = q.peek 0 :: (q.without 1).oldest n := by
        have hword (k : Nat) : q.peek (k + 1) = (q.without 1).peek k := by
          rw [peek_without q (by omega), Nat.add_comm]
        simp only [oldest, List.range_succ_eq_map, List.map_cons, List.map_map, Function.comp_def,
          hword]
      have hwithout : (q.without 1).without n = q.without (n + 1) := by
        simp only [without, Nat.sub_sub, Nat.add_comm 1 n]
      rw [takeEach?, slots_head, hrest, holdest, hwithout]

/-- **The word queue is a list of at most sixteen words.**  Any sequence of operations on a
new queue

* gives the answers that it gives on the empty list, and the queue is as full as the list
  after each operation;
* leaves the words of the list, each in a slot of the storage, with the head at the oldest;
* and words that leave together are those that leave one at a time from the head. -/
theorem queue_is_bounded_list (operations : List Operation) :
    let q := empty.performAll operations
    let words := ListQueue.performAll [] operations
    trace perform fill empty operations = trace ListQueue.perform ListQueue.fill [] operations ∧
      q.fill = ListQueue.fill words ∧ q.LaidOut words ∧
      ∀ n ≤ q.count, takeEach? n q = q.dequeue? n := by
  intro q words
  have hwords : q.toList = words := toList_performAll empty operations
  have hperform {q : WordQueue} {words : List UInt32} (h : q.toList = words)
      (operation : Operation) :
      (q.perform operation).1 = (ListQueue.perform words operation).1 ∧
        (q.perform operation).2.toList = (ListQueue.perform words operation).2 :=
    h ▸ q.perform_eq_listQueue operation
  have hfill {q : WordQueue} {words : List UInt32} (h : q.toList = words) :
      q.fill = ListQueue.fill words :=
    h ▸ q.fill_eq_listQueue
  refine ⟨?_, hfill hwords, hwords ▸ q.laidOut_toList, fun n hn => q.takeEach?_eq_dequeue? hn⟩
  exact trace_congr (R := fun q words => toList q = words) (fun h => hperform h)
    (fun h => hfill h) toList_empty operations

end WordQueue
end PlayStation
