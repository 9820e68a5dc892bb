import Mathlib.Algebra.Order.BigOperators.Group.List
import Mathlib.Algebra.Order.Ring.Nat
import PlayStation.Machine.Batch

/-!
# Batches add up

A fetch costs at most seven cycles, so a tick takes between one and eight
(`Processor.cycles_tick`), and the clock moves by the sum of what the ticks report
(`Machine.cycles_run`).  The loop over the batches of a run ends after at most nineteen
of them, and its batches are together the run that it cuts up (`Machine.batches_add_up`).
-/

namespace PlayStation

/-! ## What a tick costs -/

namespace InstructionCache

variable {β : Type} [Bus β]

/-- A miss costs the words that it reads, and three cycles more. -/
theorem cycles_refill (c : InstructionCache) (address : UInt32) (bus : β) {fetched : Fetch}
    (h : (c.refill address bus).1 = .ok fetched) :
    fetched.cycles = 4 - (wordIndex address).val + 3 := by
  unfold refill at h
  dsimp only at h
  split at h
  · cases h
    rfl
  · cases h

/-- A fetch reports at most seven cycles: four words of a line and three cycles more. -/
theorem cycles_fetch_le (c : InstructionCache) (address : UInt32) (cached : Bool) (bus : β)
    {fetched : Fetch} (h : (c.fetch address cached bus).1 = .ok fetched) : fetched.cycles ≤ 7 := by
  unfold fetch at h
  cases cached with
  | true =>
      rw [if_pos rfl] at h
      split at h
      · cases h
        exact Nat.zero_le 7
      · rw [cycles_refill c address bus h]
        omega
  | false =>
      rw [if_neg Bool.false_ne_true] at h
      split at h
      · cases h
        exact (by decide : 4 ≤ 7)
      · cases h

end InstructionCache

namespace Processor

variable {β : Type} [Bus β]

/-- So does the fetch of a tick, for one that fails reports none. -/
theorem fetchCycles_le (p : Processor) (bus : β) : fetchCycles (p.fetch bus).1 ≤ 7 := by
  unfold fetch
  split
  · exact Nat.zero_le 7
  · split
    · rename_i fetched cache bus' hfetch
      exact p.cache.cycles_fetch_le _ _ bus (congrArg Prod.fst hfetch)
    · exact Nat.zero_le 7

/-- **A tick** takes between one and eight cycles. -/
theorem cycles_tick (p : Processor) (bus : β) : 1 ≤ (p.tick bus).1 ∧ (p.tick bus).1 ≤ 8 := by
  have hfetch := p.fetchCycles_le bus
  have hcost : (p.tick bus).1 = fetchCycles (p.fetch bus).1 + 1 := rfl
  omega

end Processor

namespace Machine

/-! ## What a run costs -/

/-- The cycles that each of a number of ticks reports. -/
def reports : (ticks : Nat) → Machine → List UInt32
  | 0, _ => []
  | ticks + 1, m => m.stepCycles :: reports ticks m.step

/-- A tick moves the clock by what it reports: the word that reports it is wide enough. -/
theorem cycles_step (m : Machine) :
    m.step.clock.cycles = m.clock.cycles + m.stepCycles.toNat ∧
      1 ≤ m.stepCycles.toNat ∧ m.stepCycles.toNat ≤ 8 := by
  have hstep : m.step.clock.cycles = m.clock.cycles + (m.processor.tick m.board).1 := rfl
  have htick := m.processor.cycles_tick m.board
  have hreport : m.stepCycles.toNat = (m.processor.tick m.board).1 := by
    rw [stepCycles, UInt32.toNat_ofNat', hstep, Nat.add_sub_cancel_left]
    exact Nat.mod_eq_of_lt (by omega)
  rw [hstep, hreport]
  exact ⟨rfl, htick⟩

/-- **A run** moves the clock by the sum of what its ticks report. -/
theorem cycles_run (m : Machine) (ticks : Nat) :
    (m.run ticks).clock.cycles = m.clock.cycles + ((m.reports ticks).map UInt32.toNat).sum := by
  induction ticks generalizing m with
  | zero => rfl
  | succ ticks ih =>
      rw [run, ih, m.cycles_step.1, reports, List.map_cons, List.sum_cons, Nat.add_assoc]

/-- A run takes at least one cycle for each tick, and at most eight. -/
theorem sum_reports (m : Machine) (ticks : Nat) :
    ticks ≤ ((m.reports ticks).map UInt32.toNat).sum ∧
      ((m.reports ticks).map UInt32.toNat).sum ≤ 8 * ticks := by
  induction ticks generalizing m with
  | zero => exact ⟨Nat.le_refl 0, Nat.le_refl 0⟩
  | succ ticks ih =>
      have hfirst := m.cycles_step.2
      have hlater := ih m.step
      rw [reports, List.map_cons, List.sum_cons]
      omega

/-- What a run reports is the sum of what its ticks report. -/
theorem runCycles_eq (m : Machine) (ticks : Nat) :
    m.runCycles ticks = ((m.reports ticks).map UInt32.toNat).sum := by
  rw [runCycles, cycles_run, Nat.add_sub_cancel_left]

/-! ## The loop over the batches -/

/-- A batch: its ticks, the cycles that its run returns, and what is shown after it. -/
structure Batch where
  ticks : Nat
  cycles : Nat
  shown : Checkpoint
  deriving DecidableEq, Repr

/-- The loop that runs `remaining` ticks batch by batch, after `done` ticks, cut off after
a number of batches.  It ends when no ticks remain. -/
def batches? (size : Nat) : (limit done remaining : Nat) → Machine → Option (List Batch × Machine)
  | _, _, 0, m => some ([], m)
  | 0, _, _ + 1, _ => none
  | limit + 1, done, left + 1, m =>
    let ticks := min (left + 1) size
    let after := m.run ticks
    let here : Batch :=
      ⟨ticks, m.runCycles ticks, done + ticks, after.processor.pc, after.clock.cycles⟩
    (batches? size limit (done + ticks) (left + 1 - ticks) after).map fun (later, after) =>
      (here :: later, after)

/-- The counters that the batches show. -/
def counters (batches : List Batch) : List Nat :=
  batches.map fun batch => batch.shown.done

/-- Batches that are together the `remaining` ticks of a run, after `done` ticks. -/
structure AddUp (size done remaining : Nat) (m : Machine) (batches : List Batch) : Prop where
  size : ∀ batch ∈ batches, batch.ticks ≤ size
  ticks : (batches.map Batch.ticks).sum = remaining
  cycles : m.clock.cycles + (batches.map Batch.cycles).sum = (m.run remaining).clock.cycles
  increasing : (done :: counters batches).Pairwise (· < ·)
  last : (done :: counters batches).getLast? = some (done + remaining)

/-- No ticks make no batches. -/
theorem addUp_nil (size done : Nat) (m : Machine) : AddUp size done 0 m [] where
  size := by simp
  ticks := rfl
  cycles := rfl
  increasing := List.pairwise_singleton _ _
  last := rfl

/-- One more batch in front. -/
theorem AddUp.cons {size done remaining ticks : Nat} {m : Machine} {batches : List Batch}
    (h : AddUp size (done + ticks) remaining (m.run ticks) batches) (hpos : 0 < ticks)
    (hsize : ticks ≤ size) :
    AddUp size done (ticks + remaining) m
      (⟨ticks, m.runCycles ticks, done + ticks, (m.run ticks).processor.pc,
        (m.run ticks).clock.cycles⟩ :: batches) where
  size := by
    intro batch hmem
    rcases List.mem_cons.mp hmem with rfl | hmem
    · exact hsize
    · exact h.size batch hmem
  ticks := by rw [List.map_cons, List.sum_cons, h.ticks]
  cycles := by
    have hfirst := cycles_run m ticks
    have hlater := h.cycles
    rw [← runCycles_eq] at hfirst
    rw [List.map_cons, List.sum_cons, run_add]
    dsimp only
    omega
  increasing := by
    refine List.pairwise_cons.mpr ⟨?_, h.increasing⟩
    intro counter hmem
    have hstart : done < done + ticks := Nat.lt_add_of_pos_right hpos
    rcases List.mem_cons.mp hmem with rfl | hmem
    · exact hstart
    · exact Nat.lt_trans hstart ((List.pairwise_cons.mp h.increasing).1 counter hmem)
  last := by
    rw [counters, List.map_cons, List.getLast?_cons_cons, ← Nat.add_assoc]
    exact h.last

/-- **The loop ends** within as many batches as their size covers the ticks, and leaves
what one run leaves. -/
theorem batches?_eq {size : Nat} (hsize : 0 < size) {limit remaining : Nat}
    (hlimit : remaining ≤ limit * size) (done : Nat) (m : Machine) :
    ∃ batches, batches? size limit done remaining m = some (batches, m.run remaining) ∧
      m.runBatches size done remaining = (batches.map Batch.shown, m.run remaining) ∧
      batches.length ≤ limit ∧ AddUp size done remaining m batches := by
  induction limit generalizing remaining done m with
  | zero =>
      obtain rfl : remaining = 0 := by omega
      refine ⟨[], by rw [batches?]; rfl, ?_, Nat.le_refl 0, addUp_nil size done m⟩
      rw [runBatches, dif_neg (by omega)]
      rfl
  | succ limit ih =>
      rcases remaining with _ | left
      · refine ⟨[], by rw [batches?]; rfl, ?_, Nat.zero_le _, addUp_nil size done m⟩
        rw [runBatches, dif_neg (by omega)]
        rfl
      · obtain ⟨ticks, hticks⟩ : ∃ ticks, ticks = min (left + 1) size := ⟨_, rfl⟩
        have hrest : left + 1 - ticks ≤ limit * size := by
          rw [Nat.succ_mul] at hlimit
          omega
        obtain ⟨later, hloop, hshown, hfew, hlater⟩ := ih hrest (done + ticks) (m.run ticks)
        have hall : left + 1 = ticks + (left + 1 - ticks) := by omega
        have hrun : (m.run ticks).run (left + 1 - ticks) = m.run (left + 1) := by
          rw [← run_add, ← hall]
        have hadds := hlater.cons (by omega) (by omega)
        rw [← hall] at hadds
        refine ⟨_, ?_, ?_, ?_, hadds⟩
        · rw [batches?]
          dsimp only
          rw [← hticks, hloop, hrun]
          rfl
        · rw [runBatches, dif_pos ⟨hsize, Nat.succ_pos left⟩]
          dsimp only
          rw [← hticks, hshown, hrun]
          rfl
        · exact Nat.succ_le_succ hfew

/-- Nineteen batches of the usual size are enough for any run. -/
theorem le_mul_batchSize (ticks : Nat) : ticks ≤ 19 * batchSize ticks := by
  unfold batchSize
  omega

/-- **Batches add up.**  Take any machine and any number of ticks.  The loop over the
batches of a tenth of the ticks, and at least one, ends after at most nineteen batches.

* It leaves the machine that one run of all ticks leaves, and it is the loop that
  `runWithCheckpoints` carries out.
* The ticks of the batches add up to all ticks.  The cycles that their runs return
  add up to what the clock has moved by, which is the sum of what the ticks report:
  at least one cycle for each tick, and at most eight.
* The counters that are shown increase, and the last one shows all ticks. -/
theorem batches_add_up (m : Machine) (ticks : Nat) :
    ∃ batches, batches? (batchSize ticks) 19 0 ticks m = some (batches, m.run ticks) ∧
      m.runWithCheckpoints ticks = (batches.map Batch.shown, m.run ticks) ∧
      batches.length ≤ 19 ∧
      (∀ batch ∈ batches, batch.ticks ≤ batchSize ticks) ∧
      (batches.map Batch.ticks).sum = ticks ∧
      (batches.map Batch.cycles).sum = m.runCycles ticks ∧
      m.clock.cycles + m.runCycles ticks = (m.run ticks).clock.cycles ∧
      m.runCycles ticks = ((m.reports ticks).map UInt32.toNat).sum ∧
      ticks ≤ m.runCycles ticks ∧ m.runCycles ticks ≤ 8 * ticks ∧
      (counters batches).Pairwise (· < ·) ∧
      (0 < ticks → (counters batches).getLast? = some ticks) := by
  have hsize : 0 < batchSize ticks := Nat.le_max_right _ _
  obtain ⟨batches, hloop, hshown, hfew, hadd⟩ := batches?_eq hsize (le_mul_batchSize ticks) 0 m
  have hclock := cycles_run m ticks
  have hbounds := sum_reports m ticks
  rw [← runCycles_eq] at hclock hbounds
  refine ⟨batches, hloop, hshown, hfew, hadd.size, hadd.ticks, ?_, hclock.symm,
    runCycles_eq m ticks, hbounds.1, hbounds.2, hadd.increasing.tail, fun hpos => ?_⟩
  · have hcycles := hadd.cycles
    omega
  · have hlast := hadd.last
    rcases hcounters : counters batches with _ | ⟨first, later⟩
    · rw [hcounters] at hlast
      have hzero : 0 = 0 + ticks := Option.some.inj hlast
      omega
    · rw [hcounters, List.getLast?_cons_cons, Nat.zero_add] at hlast
      exact hlast

/-- Nineteen ticks take nineteen batches, so no smaller number is enough for all runs. -/
theorem batches_of_nineteen :
    0 < 19 ∧ ∃ batches, batches? (batchSize 19) 19 0 19 (initial {}) =
        some (batches, (initial {}).run 19) ∧
      batches.length = 19 ∧ (counters batches).getLast? = some 19 := by
  obtain ⟨batches, hloop, -, hfew, hsize, hticks, -, -, -, -, -, -, hlast⟩ :=
    batches_add_up (initial {}) 19
  have hmany : 19 ≤ (batches.map Batch.ticks).length • 1 := by
    rw [← hticks]
    exact List.sum_le_card_nsmul _ 1 (List.forall_mem_map.mpr hsize)
  rw [List.length_map, Nat.nsmul_eq_mul, Nat.mul_one] at hmany
  exact ⟨by decide, batches, hloop, Nat.le_antisymm hfew hmany, hlast (by decide)⟩

end Machine
end PlayStation
