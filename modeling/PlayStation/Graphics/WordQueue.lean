/-!
# The command word queue

A ring of sixteen slots.  Only the write position and the number of queued
words are kept; the oldest word lies that many slots behind the write position.

Seen as a list (`toList`), the queue takes words at the end (`toList_enqueue?`) and
gives them back from the front (`toList_dequeue?`), whatever the write position.
-/

namespace PlayStation

/-- How many words the queue can hold. -/
def WordQueue.capacity : Nat := 16

/-- The queue. -/
structure WordQueue where
  slots : Vector UInt32 16
  /-- The slot that the next word is written to. -/
  next : Fin 16
  count : Nat
  count_le : count ≤ 16 := by omega

namespace WordQueue

def empty : WordQueue where
  slots := Vector.replicate 16 0
  next := 0
  count := 0

/-- Forgets all words. -/
def clear (q : WordQueue) : WordQueue :=
  { q with next := 0, count := 0, count_le := by omega }

def isEmpty (q : WordQueue) : Bool :=
  q.count == 0

def isFull (q : WordQueue) : Bool :=
  q.count == capacity

/-- The word that `i` words are in front of. -/
def peek (q : WordQueue) (i : Nat) : UInt32 :=
  q.slots[(q.next.val + 16 - q.count + i) % 16]

/-- The `n` oldest words, oldest first. -/
def oldest (q : WordQueue) (n : Nat) : List UInt32 :=
  (List.range n).map q.peek

/-- All queued words, oldest first. -/
def toList (q : WordQueue) : List UInt32 :=
  q.oldest q.count

/-- Appends a word, if there is room. -/
def enqueue? (q : WordQueue) (word : UInt32) : Option WordQueue :=
  if h : q.count < 16 then
    some {
      slots := q.slots.set q.next.val word
      next := Fin.ofNat 16 (q.next.val + 1)
      count := q.count + 1 }
  else none

/-- Appends a word; a full queue drops it. -/
def push (q : WordQueue) (word : UInt32) : WordQueue :=
  (q.enqueue? word).getD q

/-- Removes the `n` oldest words, if there are as many. -/
def dequeue? (q : WordQueue) (n : Nat) : Option (List UInt32 × WordQueue) :=
  if h : n ≤ q.count then
    some (q.oldest n, { q with count := q.count - n, count_le := by have := q.count_le; omega })
  else none

/-- The oldest word. -/
def front? (q : WordQueue) : Option UInt32 :=
  if q.isEmpty then none else some (q.peek 0)

/-- The opcode in the oldest word. -/
def opcode? (q : WordQueue) : Option UInt8 :=
  q.front?.map fun (word : UInt32) => (word >>> 24).toUInt8

@[simp] theorem length_toList (q : WordQueue) : q.toList.length = q.count := by
  simp [toList, oldest]

@[simp] theorem toList_empty : empty.toList = [] := rfl

@[simp] theorem toList_clear (q : WordQueue) : q.clear.toList = [] := rfl

/-- Only a full queue refuses a word. -/
theorem enqueue?_eq_none_iff {q : WordQueue} {word : UInt32} :
    q.enqueue? word = none ↔ q.count = capacity := by
  have := q.count_le
  simp only [enqueue?, capacity]
  split <;> simp <;> omega

/-- A new word comes last. -/
theorem toList_enqueue? {q q' : WordQueue} {word : UInt32} (h : q.enqueue? word = some q') :
    q'.toList = q.toList ++ [word] := by
  unfold enqueue? at h
  split at h
  · cases h
    rename_i hcount
    have hnext := q.next.isLt
    simp only [toList, oldest, List.range_succ, List.map_append, List.map_cons, List.map_nil]
    congr 1
    · apply List.map_congr_left
      intro i hi
      have hi := List.mem_range.mp hi
      simp only [peek, Fin.ofNat]
      rw [Vector.getElem_set_ne (by omega) (by omega) (by omega)]
      congr 1
      omega
    · simp only [peek, Fin.ofNat, List.cons.injEq, and_true]
      have hindex : ((q.next.val + 1) % 16 + 16 - (q.count + 1) + q.count) % 16 = q.next.val := by
        omega
      simp only [hindex, Vector.getElem_set_self]
  · cases h

/-- The oldest words are the first ones. -/
theorem oldest_eq_take {q : WordQueue} {n : Nat} (h : n ≤ q.count) :
    q.oldest n = q.toList.take n := by
  rw [toList, oldest, oldest, ← List.map_take, List.take_range, Nat.min_eq_left h]

/-- The words that are taken come first, and the others stay in their order. -/
theorem toList_dequeue? {q q' : WordQueue} {n : Nat} {words : List UInt32}
    (h : q.dequeue? n = some (words, q')) : words ++ q'.toList = q.toList := by
  unfold dequeue? at h
  split at h
  · cases h
    rename_i hn
    have := q.count_le
    have hrange : List.range q.count = List.range n ++ (List.range (q.count - n)).map (n + ·) := by
      rw [← List.range_add, Nat.add_sub_of_le hn]
    simp only [toList, oldest, hrange, List.map_append, List.map_map]
    congr 1
    apply List.map_congr_left
    intro i hi
    have hi := List.mem_range.mp hi
    simp only [peek, Function.comp]
    congr 1
    omega
  · cases h

/-- Taking words takes them off the count, and there are never too few. -/
theorem count_dequeue? {q q' : WordQueue} {n : Nat} {words : List UInt32}
    (h : q.dequeue? n = some (words, q')) : q'.count = q.count - n ∧ n ≤ q.count := by
  unfold dequeue? at h
  split at h
  · cases h; exact ⟨rfl, by assumption⟩
  · cases h

end WordQueue
end PlayStation
