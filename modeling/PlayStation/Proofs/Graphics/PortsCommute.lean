import PlayStation.Proofs.Graphics.Quiescence
import PlayStation.Proofs.Graphics.Unseen

/-!
# The two ports do not get in each other's way

Drawing reads and sets some bits of the status word, and the display others.  A
control word that neither resets nor asks a query only changes what is displayed
(`exists_redisplay`).  Commands do not see such a change, so a word of the drawing port does
the same before and after it, whatever command it belongs to (`writeDrawing_redisplay`).

* `ports_commute` — writes to the two ports may be interleaved in any way.
-/

namespace PlayStation

open Bits

namespace GraphicsStatus

/-- The display mode is apart from drawing. -/
theorem apart_withDisplayMode (word : UInt32) : Apart drawing (withDisplayMode · word) :=
  (apart_setFlag (n := reverse) (by decide) _).comp <|
  (apart_setFlag (n := horizontal368) (by decide) _).comp <|
  (apart_setFlag (n := interlace) (by decide) _).comp <|
  (apart_setFlag (n := depth24) (by decide) _).comp <|
  (apart_setFlag (n := pal) (by decide) _).comp <|
  (apart_setFlag (n := vertical480) (by decide) _).comp <|
  apart_setField (n := horizontal) (by decide) word

end GraphicsStatus

/-- A change of what is displayed, which is apart from drawing. -/
structure DisplayChange where
  status : UInt32 → UInt32
  area : DisplayArea → DisplayArea
  apart : Apart GraphicsStatus.drawing status

namespace Graphics

/-- Changes what is displayed. -/
def redisplay (g : Graphics) (c : DisplayChange) : Graphics :=
  { g with status := c.status g.status, display := c.area g.display }

/-- Commands do not see what is displayed. -/
def unseenDisplay (c : DisplayChange) : Unseen where
  status := c.status
  display := c.area
  policy := id
  queues := .same
  apart := c.apart

/-- To be alike but for the display is to be the same unit redisplayed. -/
theorem alike_unseenDisplay_iff {g g' : Graphics} {c : DisplayChange} :
    Alike (unseenDisplay c) g g' ↔ g' = g.redisplay c := by
  constructor
  · rintro ⟨q, hq⟩
    obtain rfl : g.queue = q := hq
    rfl
  · rintro rfl
    exact .mk g.queue rfl

/-- **A word of the drawing port** does the same before and after a change of what is
displayed. -/
theorem writeDrawing_redisplay (g : Graphics) (c : DisplayChange) (word : UInt32) :
    (g.redisplay c).writeDrawing word = (g.writeDrawing word).redisplay c := by
  have hidden (opcode : UInt8) : (unseenDisplay c).Hidden opcode := .inl fun _ => rfl
  have halike : Alike (unseenDisplay c) g (g.redisplay c) := alike_unseenDisplay_iff.mpr rfl
  exact alike_unseenDisplay_iff.mp
    (halike.writeDrawing (fun _ => hidden _) fun opcode _ => hidden opcode).1

end Graphics

/-- Whether a control word leaves drawing alone: it neither resets nor asks a query. -/
def LeavesDrawing (word : UInt32) : Prop :=
  let command := (word >>> 24).toNat
  command ≠ 0x00 ∧ command ≠ 0x01 ∧ ¬ (0x10 ≤ command ∧ command ≤ 0x1F)

instance : DecidablePred LeavesDrawing := fun _ =>
  inferInstanceAs (Decidable (_ ∧ _ ∧ ¬ _))

/-- The word of a write to the control port. -/
def PortWrite.control? : PortWrite → Option UInt32
  | drawing _ => none
  | control word => some word

namespace Graphics

/-- A control word that leaves drawing alone changes what is displayed, if anything. -/
theorem exists_redisplay {word : UInt32} (h : LeavesDrawing word) :
    ∃ c, ∀ g : Graphics, g.control word = g.redisplay c := by
  unfold control
  unfold LeavesDrawing at h
  generalize (word >>> 24).toNat = command at h ⊢
  obtain ⟨hreset, habandon, hquery⟩ := h
  rcases command with _ | _ | _ | _ | _ | _ | _ | _ | _ | command
  · exact absurd rfl hreset
  · exact absurd rfl habandon
  · exact ⟨⟨_, id, apart_setFlag (n := GraphicsStatus.interrupt) (by decide) false⟩,
      fun g => rfl⟩
  · exact ⟨⟨_, id, apart_setFlag (n := GraphicsStatus.displayDisable) (by decide)
      (slice word 0 1 != 0)⟩, fun g => rfl⟩
  · exact ⟨⟨_, id, apart_setField (n := GraphicsStatus.dmaDirection) (by decide) word⟩,
      fun g => rfl⟩
  · exact ⟨⟨id, fun area => { area with
      x := (slice word 0 10).toNat, y := (slice word 10 9).toNat }, apart_id⟩, fun g => rfl⟩
  · exact ⟨⟨id, fun area => { area with
      x1 := (slice word 0 12).toNat, x2 := (slice word 12 12).toNat }, apart_id⟩, fun g => rfl⟩
  · exact ⟨⟨id, fun area => { area with
      y1 := (slice word 0 10).toNat, y2 := (slice word 10 10).toNat }, apart_id⟩, fun g => rfl⟩
  · exact ⟨⟨_, id, GraphicsStatus.apart_withDisplayMode word⟩, fun g => rfl⟩
  · refine ⟨⟨id, id, apart_id⟩, fun g => ?_⟩
    dsimp only at hquery ⊢
    exact if_neg hquery

/-! ## Any order of writes -/

variable {g : Graphics} {policy : UnhandledCommand}

/-- A word for either port leaves a settled unit settled. -/
theorem Settled.receive (h : Settled policy g) (write : PortWrite) :
    Settled policy (g.receive write) := by
  cases write with
  | drawing word => exact h.writeDrawing word
  | control word => exact h.write 4 word

/-- **Two writes.** -/
theorem writeDrawing_writeControl (h : Settled policy g) (word : UInt32) {control : UInt32}
    (hcontrol : LeavesDrawing control) :
    (g.writeDrawing word).writeControl control = (g.writeControl control).writeDrawing word := by
  obtain ⟨c, hchange⟩ := exists_redisplay hcontrol
  obtain ⟨pending, hawaits⟩ := h.awaits
  obtain ⟨pending', hawaits'⟩ := (h.writeDrawing word).awaits
  rw [(hawaits.writeControl control).1, (hawaits'.writeControl control).1, hchange, hchange,
    writeDrawing_redisplay]

/-- A word of the drawing port may be written before or after any number of control
words. -/
theorem writeDrawing_foldl_writeControl (h : Settled policy g) (word : UInt32)
    {controls : List UInt32} (hcontrols : ∀ control ∈ controls, LeavesDrawing control) :
    controls.foldl writeControl (g.writeDrawing word) =
      (controls.foldl writeControl g).writeDrawing word := by
  induction controls generalizing g with
  | nil => rfl
  | cons control controls ih =>
      obtain ⟨hfirst, hrest⟩ := List.forall_mem_cons.mp hcontrols
      rw [List.foldl_cons, List.foldl_cons, writeDrawing_writeControl h word hfirst]
      exact ih (h.receive (.control control)) hrest

/-- Whatever their order, the writes leave what the control words and then the words
of the drawing port leave. -/
theorem foldl_receive_eq (h : Settled policy g) {history : List PortWrite}
    (hcontrols : ∀ control ∈ history.filterMap PortWrite.control?, LeavesDrawing control) :
    history.foldl Graphics.receive g =
      (history.filterMap PortWrite.drawing?).foldl writeDrawing
        ((history.filterMap PortWrite.control?).foldl writeControl g) := by
  induction history generalizing g with
  | nil => rfl
  | cons write history ih =>
      have hlater := ih (h.receive write)
      cases write with
      | drawing word =>
          have hsame := writeDrawing_foldl_writeControl h word hcontrols
          exact (hlater hcontrols).trans
            (congrArg ((history.filterMap PortWrite.drawing?).foldl writeDrawing ·) hsame)
      | control word =>
          obtain ⟨-, hrest⟩ := List.forall_mem_cons.mp hcontrols
          exact hlater hrest

/-- **The ports commute.**  Take any reachable unit, under either policy and with any
part of a command received, and control words that neither reset nor ask a query.

* A word of the drawing port and such a control word leave the same unit in either
  order.
* So do all interleavings of any words of the drawing port with any such control
  words. -/
theorem ports_commute {policy : UnhandledCommand} {g : Graphics} (h : Reachable policy g) :
    (∀ word control, LeavesDrawing control →
      (g.writeDrawing word).writeControl control = (g.writeControl control).writeDrawing word) ∧
      ∀ history history' : List PortWrite,
        history.filterMap PortWrite.drawing? = history'.filterMap PortWrite.drawing? →
        history.filterMap PortWrite.control? = history'.filterMap PortWrite.control? →
        (∀ control ∈ history.filterMap PortWrite.control?, LeavesDrawing control) →
        history.foldl Graphics.receive g = history'.foldl Graphics.receive g := by
  refine ⟨fun word control hcontrol => writeDrawing_writeControl h.settled word hcontrol, ?_⟩
  intro history history' hdrawing hcontrol hleaves
  rw [foldl_receive_eq h.settled hleaves, foldl_receive_eq h.settled (hcontrol ▸ hleaves),
    hdrawing, hcontrol]

/-- The last words of a triangle and a texture mode, around and between words that
choose what is displayed. -/
theorem ports_commute_around_triangle :
    let g := (initial .drop).performAll [.write 0 0x200000FF, .write 0 0]
    let history : List PortWrite := [.drawing 0x0000000A, .control 0x08000009, .drawing 0x000A0000,
      .control 0x03000001, .drawing 0xE1000505]
    let history' : List PortWrite := [.control 0x08000009, .control 0x03000001,
      .drawing 0x0000000A, .drawing 0x000A0000, .drawing 0xE1000505]
    Reachable .drop g ∧ LeavesDrawing 0x08000009 ∧ LeavesDrawing 0x03000001 ∧
      (g.writeDrawing 0x0000000A).writeControl 0x08000009 =
        (g.writeControl 0x08000009).writeDrawing 0x0000000A ∧
      history.foldl Graphics.receive g = history'.foldl Graphics.receive g := by
  intro g history history'
  have hreachable : Reachable .drop g := Reachable.initial.performAll _
  have hmode : LeavesDrawing 0x08000009 := by decide
  have hdisable : LeavesDrawing 0x03000001 := by decide
  obtain ⟨htwo, hmany⟩ := ports_commute hreachable
  refine ⟨hreachable, hmode, hdisable, htwo _ _ hmode, hmany history history' rfl rfl ?_⟩
  intro control hcontrol
  rcases List.mem_cons.mp hcontrol with rfl | hrest
  · exact hmode
  · rcases List.mem_singleton.mp hrest with rfl
    exact hdisable

end Graphics
end PlayStation
