import PlayStation.Proofs.Graphics.Unseen
import PlayStation.Proofs.Trace

/-!
# Where the queue lies does not show

The queue is a ring, and its write position is not reset with everything else a
unit does.  Two units that are the same but for the place of their queued words in
the ring (`Requeued`) answer every operation alike and stay that way
(`Requeued.perform`).
-/

namespace PlayStation

namespace WordQueue

variable {q r : WordQueue}

/-- Queues of the same words hold the same words after a push: both are full, and drop the word, or neither is. -/
theorem toList_push_congr (h : q.toList = r.toList) (word : UInt32) :
    (q.push word).toList = (r.push word).toList := by
  have hcount := count_congr h
  by_cases hroom : q.toList.length < capacity
  · rw [toList_push rfl hroom, toList_push h.symm (h ▸ hroom), h]
  · have hfull : q.count = capacity := by
      have hle := q.count_le
      rw [length_toList] at hroom
      simp only [capacity] at hroom ⊢
      omega
    rw [push, push, enqueue?_eq_none_iff.mpr hfull, enqueue?_eq_none_iff.mpr (hcount ▸ hfull)]
    exact h

/-- Queues with the same words give the same ones back and keep the same ones. -/
theorem exists_dequeue?_of_toList_eq {q' : WordQueue} {n : Nat} {words : List UInt32}
    (h : q.toList = r.toList) (hq : q.dequeue? n = some (words, q')) :
    ∃ r', r.dequeue? n = some (words, r') ∧ q'.toList = r'.toList := by
  have hn := (count_dequeue? hq).2
  have hn' : n ≤ r.count := count_congr h ▸ hn
  have hwords : words = r.oldest n := by
    have holdest : q.dequeue? n = some (q.oldest n, _) := dif_pos hn
    rw [hq] at holdest
    rw [(Prod.mk.inj (Option.some.inj holdest)).1, oldest_eq_take hn, oldest_eq_take hn', h]
  obtain ⟨r', hr⟩ : ∃ r', r.dequeue? n = some (words, r') := by
    rw [hwords]
    exact ⟨_, dif_pos hn'⟩
  have hsplit := (toList_dequeue? hq).trans (h.trans (toList_dequeue? hr).symm)
  exact ⟨r', hr, List.append_cancel_left hsplit⟩

/-- Queues with the same words, wherever in the ring they lie. -/
def Likeness.sameWords : Likeness where
  holds q r := q.toList = r.toList
  toList_eq := id
  push := toList_push_congr
  clear _ := rfl
  dequeue := exists_dequeue?_of_toList_eq

end WordQueue

namespace Graphics

/-- The same unit with its queued words elsewhere in the ring. -/
inductive Requeued (g : Graphics) : Graphics → Prop
  | mk (q : WordQueue) (h : g.queue.toList = q.toList) : Requeued g { g with queue := q }

variable {g g' : Graphics}

/-- Commands do not see where the queued words lie. -/
def unseenPlaces : Unseen where
  status := id
  display := id
  policy := id
  queues := .sameWords
  apart := Bits.apart_id

/-- To be alike but for the places in the ring is to be requeued. -/
theorem alike_unseenPlaces_iff : Alike unseenPlaces g g' ↔ Requeued g g' := by
  constructor <;> rintro ⟨q, hq⟩ <;> exact ⟨q, hq⟩

/-- **Units that differ in the place of their queued words answer alike**, and go on
to differ in nothing else. -/
theorem Requeued.perform (h : Requeued g g') (operation : Operation) :
    (g.perform operation).1 = (g'.perform operation).1 ∧
      Requeued (g.perform operation).2 (g'.perform operation).2 := by
  have hidden (opcode : UInt8) : unseenPlaces.Hidden opcode := .inl fun _ => rfl
  obtain ⟨hanswer, hafter, -⟩ := (alike_unseenPlaces_iff.mpr h).perform
    ⟨fun _ => rfl, fun _ => rfl⟩ (fun _ => hidden _) fun opcode _ => hidden opcode
  exact ⟨hanswer, alike_unseenPlaces_iff.mp hafter⟩

/-- Requeued units stay requeued after a store to either port. -/
theorem Requeued.write (h : Requeued g g') (offset word : UInt32) :
    Requeued (g.write offset word) (g'.write offset word) :=
  (h.perform (.write offset word)).2

/-- They answer a load alike and stay requeued. -/
theorem Requeued.read (h : Requeued g g') (offset : UInt32) :
    (g.read offset).1 = (g'.read offset).1 ∧ Requeued (g.read offset).2 (g'.read offset).2 := by
  obtain ⟨hword, hafter⟩ := h.perform (.read offset)
  exact ⟨Answer.word.inj hword, hafter⟩

/-! ## What a reset leaves -/

/-- What a unit shows: its queued words in their order, and everything but the queue. -/
def shown (g : Graphics) : Graphics × List UInt32 :=
  ({ g with queue := .empty }, g.queue.toList)

/-- Nothing that can be read of them tells them apart. -/
theorem Requeued.shown_eq (h : Requeued g g') : g.shown = g'.shown := by
  cases h with
  | mk q hq => rw [shown, shown, hq]

/-- The unit with other pixels, and another value for its reads to repeat. -/
def holding (g : Graphics) (vram : Vram) (latch : UInt32) : Graphics :=
  { g with vram, latch }

/-- A reset gives a new unit that holds the old pixels and the last value read. -/
theorem requeued_reset (g : Graphics) :
    Requeued g.reset ((initial g.unhandledCommand).holding g.vram g.latch) :=
  ⟨.empty, rfl⟩

/-- The first control command is a reset. -/
theorem writeControl_reset (g : Graphics) (parameter : UInt32) :
    g.writeControl (parameter &&& 0x00FFFFFF) = g.reset := by
  have hcommand : ((parameter &&& 0x00FFFFFF) >>> 24).toNat = 0 := by
    have hmask : (parameter &&& 0x00FFFFFF).toNat = parameter.toNat % 2 ^ 24 :=
      (UInt32.toNat_and ..).trans (Nat.and_two_pow_sub_one_eq_mod _ 24)
    rw [UInt32.toNat_shiftRight, hmask, Nat.shiftRight_eq_div_pow]
    exact Nat.div_eq_of_lt (Nat.mod_lt _ (by decide))
  have hcontrol : g.control (parameter &&& 0x00FFFFFF) = g.reset := by
    unfold Graphics.control
    rw [hcommand]
    rfl
  have hidle : Awaits g.reset [] := .idle rfl rfl rfl
  rw [writeControl, hcontrol]
  exact hidle.run_eq

end Graphics
end PlayStation
