import PlayStation.Proofs.Bits
import PlayStation.Proofs.Graphics.Reachable

/-!
# What commands do not see

Commands see the words in the queue and not where in the ring they lie.  Of the status word
they see the bits that drawing reads and sets (`GraphicsStatus.drawing`), and of what is
displayed they see nothing.  At the policy for commands without a handler they look in one
place, when the unit goes on with such a command.

A change of what they do not see (`Unseen`) may therefore be made before a command or after
it.  Two units that differ by such a change (`Alike`) stay alike in every round of the
queue (`Alike.step`, `Alike.run`) and after every word of the drawing port
(`Alike.writeDrawing`), as long as no opcode is captured in whose command the change shows.
If it keeps what can be read, all operations answer alike as well (`Alike.perform`).
-/

namespace PlayStation

open Bits

/-- The bits of the status word that drawing reads and sets. -/
def GraphicsStatus.drawing : UInt32 := drawMode ||| setMask ||| checkMask ||| textureDisable

namespace GraphicsStatus

variable {f : UInt32 → UInt32}

/-! ## The status word

What is apart from drawing commutes with the settings that drawing makes, and hides
nothing that drawing looks at. -/

/-- The drawing mode may be set before such a change or after it. -/
theorem withDrawMode_of_apart (h : Apart drawing f) (status word : UInt32) :
    withDrawMode (f status) word = f (withDrawMode status word) := by
  rw [withDrawMode, withDrawMode, h.setFlag (m := textureDisable) (by decide),
    h.masked (m := drawMode) (by decide)]

/-- A texture page may be set before such a change or after it. -/
theorem withTexturePage_of_apart (h : Apart drawing f) (status page : UInt32) :
    withTexturePage (f status) page = f (withTexturePage status page) := by
  rw [withTexturePage, withTexturePage, h.setFlag (m := textureDisable) (by decide),
    h.masked (m := texturePage) (by decide)]

/-- The mask settings may be set before such a change or after it. -/
theorem withMaskSettings_of_apart (h : Apart drawing f) (status word : UInt32) :
    withMaskSettings (f status) word = f (withMaskSettings status word) := by
  rw [withMaskSettings, withMaskSettings, h.setFlag (m := checkMask) (by decide),
    h.setFlag (m := setMask) (by decide)]

/-- Such a change does not touch the depth of the texture page. -/
theorem depthOf_of_apart (h : Apart drawing f) (status : UInt32) :
    depthOf (f status) = depthOf status := by
  rw [depthOf, depthOf, h.field_eq (m := texelDepth) (by decide)]

/-- Such a change does not touch the blend mode. -/
theorem blendOf_of_apart (h : Apart drawing f) (status : UInt32) :
    blendOf (f status) = blendOf status := by
  rw [blendOf, blendOf, h.field_eq (m := blendMode) (by decide)]

end GraphicsStatus

namespace WordQueue

/-- Queues of the same words are equally long. -/
theorem count_congr {q r : WordQueue} (h : q.toList = r.toList) : q.count = r.count := by
  rw [← length_toList, h, length_toList]

/-- A way for queues to be alike that keeps what can be told of them by taking words. -/
structure Likeness where
  holds : WordQueue → WordQueue → Prop
  toList_eq {q r : WordQueue} : holds q r → q.toList = r.toList
  push {q r : WordQueue} : holds q r → ∀ word, holds (q.push word) (r.push word)
  clear {q r : WordQueue} : holds q r → holds q.clear r.clear
  dequeue {q r q' : WordQueue} {n : Nat} {words : List UInt32} : holds q r →
    q.dequeue? n = some (words, q') → ∃ r', r.dequeue? n = some (words, r') ∧ holds q' r'

/-- Queues that are the same. -/
def Likeness.same : Likeness where
  holds := Eq
  toList_eq := congrArg toList
  push h word := congrArg (WordQueue.push · word) h
  clear h := congrArg WordQueue.clear h
  dequeue {_ _ q' _ _} h hq := ⟨q', h ▸ hq, rfl⟩

variable {l : Likeness} {q r : WordQueue}

/-- Queues that are alike hold equally many words. -/
theorem Likeness.count_eq (h : l.holds q r) : q.count = r.count :=
  count_congr (l.toList_eq h)

/-- Queues that are alike give the same words, or both none. -/
theorem Likeness.dequeue?_cases (h : l.holds q r) (n : Nat) :
    (q.dequeue? n = none ∧ r.dequeue? n = none) ∨
      ∃ q' r', q.dequeue? n = some (q.oldest n, q') ∧ r.dequeue? n = some (q.oldest n, r') ∧
        l.holds q' r' := by
  by_cases hn : n ≤ q.count
  · obtain ⟨q', hq⟩ : ∃ q', q.dequeue? n = some (q.oldest n, q') := ⟨_, dif_pos hn⟩
    obtain ⟨r', hr, hlater⟩ := l.dequeue h hq
    exact .inr ⟨q', r', hq, hr, hlater⟩
  · have hr : ¬ n ≤ r.count := count_eq h ▸ hn
    exact .inl ⟨dif_neg hn, dif_neg hr⟩

/-- The next opcode in them is the same. -/
theorem Likeness.opcode?_eq (h : l.holds q r) : r.opcode? = q.opcode? := by
  have hwords := l.toList_eq h
  cases hq : q.toList with
  | nil => rw [opcode?_of_nil hq, opcode?_of_nil (hwords.symm.trans hq)]
  | cons first rest => rw [opcode?_of_toList hq, opcode?_of_toList (hwords.symm.trans hq)]

end WordQueue

namespace Graphics

/-! ## What is captured -/

/-- The opcodes that are captured while the queue is carried out: each is that of the
word at the head of the queue when no command is in progress. -/
def captured (g : Graphics) : List UInt8 :=
  match g.begin? with
  | none => []
  | some begun =>
    let first := if g.progress.inProgress then [] else [begun.progress.opcode]
    let after := begun.step
    if after.queue.count < g.queue.count then first ++ after.captured else first
  termination_by g.queue.count

/-- The opcodes that a word of the drawing port causes to be captured.  A word that
takes effect at once is not queued. -/
def capturedByDrawing (g : Graphics) (word : UInt32) : List UInt8 :=
  let immediate := if g.progress.inProgress then none else g.immediate? word
  match immediate with
  | some _ => []
  | none => captured { g with queue := g.queue.push word }

/-- The opcodes that a write at an offset from the first port causes to be captured. -/
def capturedByWrite (g : Graphics) (offset word : UInt32) : List UInt8 :=
  if offset &&& 4 = 0 then g.capturedByDrawing word else (g.control word).captured

/-- The opcodes that an operation causes to be captured. -/
def capturedBy (g : Graphics) : Operation → List UInt8
  | .write offset word => g.capturedByWrite offset word
  | .dmaWrite _ word => g.capturedByWrite 0 word
  | _ => []

/-! ## Units that differ in what commands do not see -/

/-- A change of what commands do not see. -/
structure Unseen where
  status : UInt32 → UInt32
  display : DisplayArea → DisplayArea
  policy : UnhandledCommand → UnhandledCommand
  queues : WordQueue.Likeness
  apart : Apart GraphicsStatus.drawing status

/-- The same unit but for such a change. -/
inductive Alike (u : Unseen) (g : Graphics) : Graphics → Prop
  | mk (q : WordQueue) (h : u.queues.holds g.queue q) : Alike u g { g with
      status := u.status g.status
      display := u.display g.display
      unhandledCommand := u.policy g.unhandledCommand
      queue := q }

/-- Whether a change does not show in a command with this opcode.  The policy shows only in
a command without a handler. -/
def Unseen.Hidden (u : Unseen) (opcode : UInt8) : Prop :=
  (∀ policy, u.policy policy = policy) ∨ Command.ofOpcode opcode ≠ .unhandled

/-- Whether a change does not show in the command in progress, if there is one. -/
def Unseen.HiddenIn (u : Unseen) (g : Graphics) : Prop :=
  g.progress.inProgress = true → u.Hidden g.progress.opcode

variable {u : Unseen} {g g' : Graphics} {word : UInt32}

/-- Units that are alike are as far in the same command. -/
theorem Alike.progress_eq (h : Alike u g g') : g'.progress = g.progress := by
  cases h
  rfl

/-- They wait for equally many words. -/
theorem Alike.count_eq (h : Alike u g g') : g'.queue.count = g.queue.count := by
  cases h with
  | mk q hq => exact (WordQueue.Likeness.count_eq hq).symm

/-! ## Carrying out commands -/

/-- They stay alike when both complete their command. -/
theorem Alike.complete (h : Alike u g g') : Alike u g.complete g'.complete := by
  cases h with
  | mk q hq => exact ⟨q, hq⟩

/-- **Settings.** -/
theorem Alike.applySetting (h : Alike u g g') (word : UInt32) :
    Alike u (g.applySetting word) (g'.applySetting word) := by
  cases h with
  | mk q hq =>
      unfold Graphics.applySetting setDrawMode setWindow setTopLeft setBottomRight setOffset
        setMasks
      split
      case h_1 =>
        dsimp only
        rw [GraphicsStatus.withDrawMode_of_apart u.apart]
        exact ⟨q, hq⟩
      case h_6 =>
        dsimp only
        rw [GraphicsStatus.withMaskSettings_of_apart u.apart]
        exact ⟨q, hq⟩
      all_goals exact ⟨q, hq⟩

/-- They stay alike when a polygon brings a texture page. -/
theorem Alike.applyTexturePage (h : Alike u g g') (page : TexturePage) :
    Alike u (g.applyTexturePage page) (g'.applyTexturePage page) := by
  cases h with
  | mk q hq =>
      unfold Graphics.applyTexturePage
      dsimp only
      rw [GraphicsStatus.withTexturePage_of_apart u.apart]
      exact ⟨q, hq⟩

/-- Triangles are drawn on the same canvas. -/
theorem Alike.canvas_eq (h : Alike u g g') (paint : Paint) : g'.canvas paint = g.canvas paint := by
  cases h
  unfold canvas
  dsimp only
  rw [u.apart.flag_eq (m := GraphicsStatus.checkMask) (by decide),
    u.apart.flag_eq (m := GraphicsStatus.setMask) (by decide)]

/-- Triangles are drawn with the same paint. -/
theorem Alike.paintFor_eq (h : Alike u g g') (form : PolygonForm) (words : List UInt32) :
    g'.paintFor form words = g.paintFor form words := by
  cases h
  unfold paintFor
  dsimp only
  rw [GraphicsStatus.depthOf_of_apart u.apart, GraphicsStatus.blendOf_of_apart u.apart]

/-- They draw the same, since the store and all that a canvas is made of are shared. -/
theorem Alike.drawTriangles (h : Alike u g g') (paint : Paint) (triangles : List Triangle) :
    Alike u (g.drawTriangles paint triangles) (g'.drawTriangles paint triangles) := by
  unfold Graphics.drawTriangles
  rw [h.canvas_eq]
  cases h with
  | mk q hq => exact ⟨q, hq⟩

/-- **Polygons.** -/
theorem Alike.drawPolygon (h : Alike u g g') (form : PolygonForm) (words : List UInt32) :
    Alike u (g.drawPolygon form words) (g'.drawPolygon form words) := by
  unfold Graphics.drawPolygon
  cases form.textured with
  | true =>
      dsimp only
      rw [if_pos rfl, if_pos rfl]
      have hpage := h.applyTexturePage (.ofWord (words.getD 4 0))
      rw [hpage.paintFor_eq]
      exact hpage.drawTriangles _ _
  | false =>
      dsimp only
      rw [if_neg Bool.false_ne_true, if_neg Bool.false_ne_true, h.paintFor_eq]
      exact h.drawTriangles _ _

/-- **Uploads.** -/
theorem Alike.stepUpload (h : Alike u g g') : Alike u g.stepUpload g'.stepUpload := by
  cases h with
  | mk q hq =>
      unfold Graphics.stepUpload
      dsimp only
      split
      · rcases WordQueue.Likeness.dequeue?_cases hq 3 with ⟨hg, hg'⟩ | ⟨r, r', hg, hg', hr⟩
        · rw [hg, hg']
          exact ⟨q, hq⟩
        · rw [hg, hg']
          exact ⟨r', hr⟩
      · rcases WordQueue.Likeness.dequeue?_cases hq 1 with ⟨hg, hg'⟩ | ⟨r, r', hg, hg', hr⟩
        · rw [hg, hg']
          exact ⟨q, hq⟩
        · rw [hg, hg']
          cases g.upload with
          | none => exact ⟨r', hr⟩
          | some transfer =>
              change Alike u (if _ then _ else _) (if _ then _ else _)
              split <;> exact ⟨r', hr⟩

/-- **Downloads.** -/
theorem Alike.startDownload (h : Alike u g g') : Alike u g.startDownload g'.startDownload := by
  cases h with
  | mk q hq =>
      unfold Graphics.startDownload
      rcases WordQueue.Likeness.dequeue?_cases hq 3 with ⟨hg, hg'⟩ | ⟨r, r', hg, hg', hr⟩
      · rw [hg, hg']
        exact ⟨q, hq⟩
      · rw [hg, hg']
        exact ⟨r', hr⟩

/-- **Dropped commands.** -/
theorem Alike.discard (h : Alike u g g') (length : CommandLength) (count : Nat) :
    Alike u (g.discard length count) (g'.discard length count) := by
  induction count generalizing g g' with
  | zero => exact h
  | succ count ih =>
      cases h with
      | mk q hq =>
          unfold Graphics.discard
          rcases WordQueue.Likeness.dequeue?_cases hq 1 with ⟨hg, hg'⟩ | ⟨r, r', hg, hg', hr⟩
          · rw [hg, hg']
            exact ⟨q, hq⟩
          · rw [hg, hg']
            change Alike u (if _ then _ else _) (if _ then _ else _)
            split
            · exact ⟨r', hr⟩
            · exact ih ⟨r', hr⟩

/-- **One round** of a command in which the change does not show. -/
theorem Alike.step (h : Alike u g g') (hidden : u.Hidden g.progress.opcode) :
    Alike u g.step g'.step := by
  have hcount := h.count_eq
  have hupload := h.stepUpload
  have hdownload := h.startDownload
  have hdiscard := h.discard
  cases h with
  | mk q hq =>
      unfold Graphics.step
      cases hcommand : Command.ofOpcode g.progress.opcode with
      | clearQueue => exact ⟨q.clear, u.queues.clear hq⟩
      | polygon form =>
          dsimp only
          rcases WordQueue.Likeness.dequeue?_cases hq form.words with
            ⟨hg, hg'⟩ | ⟨r, r', hg, hg', hr⟩
          · rw [hg, hg']
            exact ⟨q, hq⟩
          · rw [hg, hg']
            exact (Alike.drawPolygon ⟨r', hr⟩ form _).complete
      | upload => exact hupload
      | download => exact hdownload
      | setting =>
          dsimp only
          rcases WordQueue.Likeness.dequeue?_cases hq 1 with ⟨hg, hg'⟩ | ⟨r, r', hg, hg', hr⟩
          · rw [hg, hg']
            exact ⟨q, hq⟩
          · rw [hg, hg']
            exact (Alike.applySetting ⟨r', hr⟩ _).complete
      | noOperation =>
          dsimp only
          rcases WordQueue.Likeness.dequeue?_cases hq 1 with ⟨hg, hg'⟩ | ⟨r, r', hg, hg', hr⟩
          · rw [hg, hg']
            exact ⟨q, hq⟩
          · rw [hg, hg']
            exact ⟨r', hr⟩
      | unhandled =>
          -- The one place where the policy is looked at, so the change must keep it.
          have hpolicy := (hidden.resolve_right fun h => h hcommand) g.unhandledCommand
          dsimp only at hcount ⊢
          rw [hcount, hpolicy]
          split
          · have hdropped := hdiscard (.ofOpcode g.progress.opcode) g.queue.count
            rwa [hpolicy] at hdropped
          · have hsame : Alike u g _ := .mk q hq
            rwa [hpolicy] at hsame

/-- The same command is begun. -/
theorem Alike.begin? (h : Alike u g g') :
    (g.begin? = none ∧ g'.begin? = none) ∨
      ∃ b b', g.begin? = some b ∧ g'.begin? = some b' ∧ Alike u b b' := by
  cases h with
  | mk q hq =>
      unfold Graphics.begin?
      dsimp only
      rw [WordQueue.Likeness.opcode?_eq hq]
      by_cases hbusy : g.progress.inProgress
      · rw [if_pos hbusy, if_pos hbusy]
        exact .inr ⟨_, _, rfl, rfl, q, hq⟩
      · rw [if_neg hbusy, if_neg hbusy]
        cases g.queue.opcode? with
        | none => exact .inl ⟨rfl, rfl⟩
        | some opcode => exact .inr ⟨_, _, rfl, rfl, q, hq⟩

/-- A change that shows neither in the command in progress nor in the opcode that is captured
does not show in the command that is begun. -/
theorem Unseen.HiddenIn.begin? {begun : Graphics} (hin : u.HiddenIn g)
    (hbegin : g.begin? = some begun)
    (hfirst : g.progress.inProgress = false → u.Hidden begun.progress.opcode) :
    u.Hidden begun.progress.opcode := by
  by_cases hbusy : g.progress.inProgress = true
  · rw [Graphics.begin?, if_pos hbusy] at hbegin
    obtain rfl := Option.some.inj hbegin
    exact hin hbusy
  · exact hfirst (Bool.eq_false_iff.mpr hbusy)

/-- **Carrying out the queue** does the same to both units, if the change shows in no command
whose opcode is captured. -/
theorem Alike.run (h : Alike u g g') (hin : u.HiddenIn g)
    (hidden : ∀ opcode ∈ g.captured, u.Hidden opcode) :
    Alike u g.run g'.run ∧ u.HiddenIn g.run := by
  induction hcount : g.queue.count using Nat.strongRecOn generalizing g g' with
  | ind count ih =>
      rw [Graphics.run, Graphics.run]
      rw [captured] at hidden
      rcases h.begin? with ⟨hg, hg'⟩ | ⟨begun, begun', hg, hg', hbegun⟩
      · rw [hg, hg']
        exact ⟨h, hin⟩
      · rw [hg] at hidden
        rw [hg, hg']
        dsimp only at hidden ⊢
        have hnow : u.Hidden begun.progress.opcode := by
          refine hin.begin? hg fun hidle => ?_
          rw [hidle, if_neg Bool.false_ne_true] at hidden
          split at hidden
          · exact hidden _ (List.mem_append_left _ List.mem_cons_self)
          · exact hidden _ List.mem_cons_self
        have hround := hbegun.step hnow
        have hafter : u.HiddenIn begun.step := fun _ => (opcode_step begun).symm ▸ hnow
        rw [hround.count_eq, h.count_eq]
        by_cases hless : begun.step.queue.count < g.queue.count
        · rw [if_pos hless] at hidden
          rw [if_pos hless, if_pos hless]
          exact ih _ (hcount ▸ hless) hround hafter
            (fun opcode hmem => hidden opcode (List.mem_append_right _ hmem)) rfl
        · rw [if_neg hless, if_neg hless]
          exact ⟨hround, hafter⟩

/-! ## The drawing port -/

/-- A word takes effect at once in both units or in none. -/
theorem Alike.immediate? (h : Alike u g g') (word : UInt32) :
    (g.immediate? word = none ∧ g'.immediate? word = none) ∨
      ∃ a a', g.immediate? word = some a ∧ g'.immediate? word = some a' ∧ Alike u a a' := by
  rw [immediate?_eq, immediate?_eq]
  by_cases hnow : IsImmediate (opcodeOf word)
  · rw [if_pos hnow, if_pos hnow]
    refine .inr ⟨_, _, rfl, rfl, ?_⟩
    rcases ofOpcode_of_isImmediate _ hnow with hsetting | hnone
    · rw [hsetting]
      exact h.applySetting word
    · rw [hnone]
      exact h
  · exact .inl ⟨if_neg hnow, if_neg hnow⟩

/-- A word that takes effect at once begins no command. -/
theorem progress_of_immediate? {after : Graphics} (h : g.immediate? word = some after) :
    after.progress = g.progress := by
  rcases cases_of_immediate? h with ⟨-, rfl⟩ | ⟨-, rfl⟩
  · exact (applySetting_sameCommand g word).1.progress
  · rfl

/-- **A word of the drawing port** does the same to both units. -/
theorem Alike.writeDrawing (h : Alike u g g') (hin : u.HiddenIn g)
    (hidden : ∀ opcode ∈ g.capturedByDrawing word, u.Hidden opcode) :
    Alike u (g.writeDrawing word) (g'.writeDrawing word) ∧ u.HiddenIn (g.writeDrawing word) := by
  have himmediate := h.immediate? word
  have hprogress := h.progress_eq
  have hqueued (hcaptured : ∀ opcode ∈ captured { g with queue := g.queue.push word },
      u.Hidden opcode) :
      Alike u (Graphics.run { g with queue := g.queue.push word })
          (Graphics.run { g' with queue := g'.queue.push word }) ∧
        u.HiddenIn (Graphics.run { g with queue := g.queue.push word }) := by
    refine Alike.run ?_ hin hcaptured
    cases h with
    | mk q hq => exact ⟨q.push word, u.queues.push hq word⟩
  unfold capturedByDrawing at hidden
  unfold Graphics.writeDrawing
  by_cases hbusy : g.progress.inProgress = true
  · have hbusy' : g'.progress.inProgress = true := hprogress ▸ hbusy
    rw [if_pos hbusy] at hidden
    rw [if_pos hbusy, if_pos hbusy']
    exact hqueued hidden
  · have hbusy' : ¬ g'.progress.inProgress = true := hprogress ▸ hbusy
    rw [if_neg hbusy] at hidden
    rw [if_neg hbusy, if_neg hbusy']
    rcases himmediate with ⟨hg, hg'⟩ | ⟨a, a', hg, hg', ha⟩
    · rw [hg] at hidden
      rw [hg, hg']
      exact hqueued hidden
    · rw [hg, hg']
      refine ⟨ha, fun hstarted => ?_⟩
      rw [progress_of_immediate? hg] at hstarted
      exact absurd hstarted hbusy

/-! ## All operations

A change of the status word or of what is displayed shows when it is read. -/

/-- A change that keeps what can be read. -/
def Unseen.Inner (u : Unseen) : Prop :=
  (∀ status, u.status status = status) ∧ ∀ display, u.display display = display

/-- Such a change moves the queued words and replaces the policy. -/
theorem alike_iff_of_inner (hinner : u.Inner) : Alike u g g' ↔ ∃ q, u.queues.holds g.queue q ∧
    g' = { g with queue := q, unhandledCommand := u.policy g.unhandledCommand } := by
  obtain ⟨hstatus, hdisplay⟩ := hinner
  constructor
  · rintro ⟨q, hq⟩
    exact ⟨q, hq, by rw [hstatus, hdisplay]⟩
  · rintro ⟨q, hq, rfl⟩
    have halike : Alike u g _ := .mk q hq
    rwa [hstatus, hdisplay] at halike

/-- They take a control word alike if the change is inside the unit. -/
theorem Alike.control (h : Alike u g g') (hinner : u.Inner) (word : UInt32) :
    Alike u (g.control word) (g'.control word) := by
  obtain ⟨q, hq, rfl⟩ := (alike_iff_of_inner hinner).mp h
  rw [alike_iff_of_inner hinner]
  unfold Graphics.control
  split
  case h_1 => exact ⟨q.clear, u.queues.clear hq, rfl⟩
  case h_2 => exact ⟨q.clear, u.queues.clear hq, rfl⟩
  case h_10 => split <;> exact ⟨q, hq, rfl⟩
  all_goals exact ⟨q, hq, rfl⟩

/-- Whether the change is hidden depends on the command in progress alone. -/
theorem Unseen.HiddenIn.congr (hin : u.HiddenIn g) {after : Graphics} (h : SameCommand g after) :
    u.HiddenIn after := by
  unfold HiddenIn
  rw [h.progress]
  exact hin

/-- A control word ends the command in progress or leaves it alone. -/
theorem Unseen.HiddenIn.control (hin : u.HiddenIn g) (word : UInt32) :
    u.HiddenIn (g.control word) := by
  rcases control_cases g word with ⟨-, -, hprogress, -, -⟩ | ⟨-, hsame⟩
  · intro hbusy
    rw [hprogress] at hbusy
    cases hbusy
  · exact hin.congr hsame

/-- They stay alike after a word for either port. -/
theorem Alike.write (h : Alike u g g') (hinner : u.Inner) (hin : u.HiddenIn g) {offset : UInt32}
    (hidden : ∀ opcode ∈ g.capturedByWrite offset word, u.Hidden opcode) :
    Alike u (g.write offset word) (g'.write offset word) ∧ u.HiddenIn (g.write offset word) := by
  unfold capturedByWrite at hidden
  unfold Graphics.write
  by_cases hport : offset &&& 4 = 0
  · rw [if_pos hport] at hidden
    rw [if_pos hport, if_pos hport]
    exact h.writeDrawing hin hidden
  · rw [if_neg hport] at hidden
    rw [if_neg hport, if_neg hport]
    exact (h.control hinner word).run (hin.control word) hidden

/-- They answer a load from either port alike and stay alike. -/
theorem Alike.read (h : Alike u g g') (hinner : u.Inner) (offset : UInt32) :
    (g.read offset).1 = (g'.read offset).1 ∧ Alike u (g.read offset).2 (g'.read offset).2 := by
  obtain ⟨q, hq, rfl⟩ := (alike_iff_of_inner hinner).mp h
  rw [alike_iff_of_inner hinner]
  unfold Graphics.read readDrawing
  split
  · dsimp only
    split <;> exact ⟨rfl, q, hq, rfl⟩
  · exact ⟨rfl, q, hq, rfl⟩

/-- **One operation** answers alike and leaves units alike, if the change keeps what can be
read and shows in no command whose opcode is captured. -/
theorem Alike.perform (h : Alike u g g') (hinner : u.Inner) (hin : u.HiddenIn g)
    {operation : Operation} (hidden : ∀ opcode ∈ g.capturedBy operation, u.Hidden opcode) :
    (g.perform operation).1 = (g'.perform operation).1 ∧
      Alike u (g.perform operation).2 (g'.perform operation).2 ∧
      u.HiddenIn (g.perform operation).2 := by
  cases operation with
  | write offset word => exact ⟨rfl, h.write hinner hin hidden⟩
  | dmaWrite clock word => exact ⟨rfl, h.write hinner hin hidden⟩
  | read offset =>
      obtain ⟨hword, hafter⟩ := h.read hinner offset
      exact ⟨congrArg Answer.word hword, hafter, hin.congr (read_sameCommand g offset)⟩
  | dmaRead clock =>
      obtain ⟨hword, hafter⟩ := h.read hinner 0
      exact ⟨congrArg (Answer.transferred · _) hword, hafter, hin.congr (read_sameCommand g 0)⟩
  | writePixel x y pixel =>
      cases h with
      | mk q hq => exact ⟨rfl, ⟨q, hq⟩, hin⟩
  | readPixel x y =>
      cases h with
      | mk q hq => exact ⟨rfl, ⟨q, hq⟩, hin⟩
  | writeRect x y width height pixels =>
      cases h with
      | mk q hq =>
          dsimp only [Graphics.perform, Graphics.writeRect]
          rcases g.vram.writeRect x y width height pixels with e | vram
          · exact ⟨rfl, ⟨q, hq⟩, hin⟩
          · exact ⟨rfl, ⟨q, hq⟩, hin⟩
  | reset =>
      obtain ⟨q, hq, rfl⟩ := (alike_iff_of_inner hinner).mp h
      refine ⟨rfl, (alike_iff_of_inner hinner).mpr ⟨q.clear, u.queues.clear hq, rfl⟩, nofun⟩

end Graphics
end PlayStation
