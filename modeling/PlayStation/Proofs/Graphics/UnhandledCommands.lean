import PlayStation.Proofs.Graphics.Unseen
import PlayStation.Proofs.Trace

/-!
# Commands without a handler

What the drawing unit does with a command that it cannot draw is a policy of its own.
The unit looks at it in one place, when it goes on with such a command.  A unit begins a
command when it captures the opcode at the head of its queue (`captured`), so two units
that differ only in the policy stay alike until one of them captures an opcode without a
handler (`trace_withPolicy`).
-/

namespace PlayStation

namespace Graphics

/-- The unit with another policy for commands without a handler. -/
def withPolicy (g : Graphics) (policy : UnhandledCommand) : Graphics :=
  { g with unhandledCommand := policy }

/-- The command in progress, if there is one, has a handler. -/
def Handled (g : Graphics) : Prop :=
  g.progress.inProgress = true → Command.ofOpcode g.progress.opcode ≠ .unhandled

/-- Whether every opcode that a sequence of operations causes to be captured has a
handler. -/
def CapturesHandled : Graphics → List Operation → Prop
  | _, [] => True
  | g, operation :: later =>
      (∀ opcode ∈ g.capturedBy operation, Command.ofOpcode opcode ≠ .unhandled) ∧
        CapturesHandled (g.perform operation).2 later

/-! ## Another policy -/

/-- The policy is seen in commands without a handler only. -/
def unseenPolicy (policy : UnhandledCommand) : Unseen where
  status := id
  display := id
  policy _ := policy
  queues := .same
  apart := Bits.apart_id

variable {g g' : Graphics} (policy : UnhandledCommand)

/-- To be alike but for the policy is to be the same unit with another policy. -/
theorem alike_unseenPolicy_iff : Alike (unseenPolicy policy) g g' ↔ g' = g.withPolicy policy := by
  constructor
  · rintro ⟨q, hq⟩
    obtain rfl : g.queue = q := hq
    rfl
  · rintro rfl
    exact .mk g.queue rfl

/-- There are two policies, so one of them is changed. -/
theorem hidden_unseenPolicy_iff {opcode : UInt8} :
    (unseenPolicy policy).Hidden opcode ↔ Command.ofOpcode opcode ≠ .unhandled := by
  refine or_iff_right fun hkept => ?_
  cases (hkept .drop).symm.trans (hkept .stall)

/-- The policy is hidden in a unit whose command has a handler. -/
theorem hiddenIn_unseenPolicy_iff : (unseenPolicy policy).HiddenIn g ↔ g.Handled :=
  imp_congr_right fun _ => hidden_unseenPolicy_iff policy

/-- **One operation** answers the same under either policy and leaves units alike, if
every opcode that it causes to be captured has a handler. -/
theorem perform_withPolicy (hg : g.Handled) {operation : Operation}
    (h : ∀ opcode ∈ g.capturedBy operation, Command.ofOpcode opcode ≠ .unhandled) :
    (g.withPolicy policy).perform operation =
        ((g.perform operation).1, (g.perform operation).2.withPolicy policy) ∧
      (g.perform operation).2.Handled := by
  have halike : Alike (unseenPolicy policy) g (g.withPolicy policy) :=
    (alike_unseenPolicy_iff policy).mpr rfl
  obtain ⟨hanswer, hafter, hhandled⟩ := halike.perform ⟨fun _ => rfl, fun _ => rfl⟩
    ((hiddenIn_unseenPolicy_iff policy).mpr hg) fun opcode hmem =>
      (hidden_unseenPolicy_iff policy).mpr (h opcode hmem)
  exact ⟨Prod.ext hanswer.symm ((alike_unseenPolicy_iff policy).mp hafter),
    (hiddenIn_unseenPolicy_iff policy).mp hhandled⟩

/-- **The policy shows only when an opcode without a handler is captured.**  Until then
the answers of all operations are the same under either policy, and so are the units
after each of them, the policy apart. -/
theorem trace_withPolicy (hg : g.Handled) {operations : List Operation}
    (h : g.CapturesHandled operations) (erased : UnhandledCommand) :
    trace perform (withPolicy · erased) (g.withPolicy policy) operations =
      trace perform (withPolicy · erased) g operations := by
  induction operations generalizing g with
  | nil => rfl
  | cons operation later ih =>
      obtain ⟨hfirst, hlater⟩ := h
      obtain ⟨hsame, hhandled⟩ := perform_withPolicy policy hg hfirst
      rw [trace, trace, hsame, ih hhandled hlater]
      rfl

/-! ## Units that differ in the policy only -/

/-- A unit that drops commands keeps no word of the one in progress, if it has no handler;
a unit that stalls keeps all. -/
theorem Awaits.queue_of_unhandled {pending : List UInt32} (h : Awaits g pending)
    (hbusy : g.progress.inProgress = true)
    (hunhandled : Command.ofOpcode g.progress.opcode = .unhandled) :
    g.queue.toList = [] ↔ g.unhandledCommand = .drop := by
  cases h with
  | idle queue progress upload =>
      rw [progress] at hbusy
      cases hbusy
  | queued queue progress upload short =>
      rw [progress] at hunhandled
      have hone : (Command.ofOpcode (opcodeOf _)).takes = 1 := congrArg Command.takes hunhandled
      omega
  | uploading opcode queue progress upload short =>
      rw [progress, opcode] at hunhandled
      cases hunhandled
  | dropping policy command queue progress upload short => simp [queue, policy]
  | stalled policy command queue progress upload => simp [queue, policy]

/-- Two reachable units that differ in the policy only have no command without a handler
in progress. -/
theorem handled_of_reachable (hdrop : Reachable .drop (g.withPolicy .drop))
    (hstall : Reachable .stall (g.withPolicy .stall)) : g.Handled := by
  intro hbusy hunhandled
  obtain ⟨pending, hawaits⟩ := hdrop.settled.awaits
  obtain ⟨pending', hawaits'⟩ := hstall.settled.awaits
  have hempty : g.queue.toList = [] := (hawaits.queue_of_unhandled hbusy hunhandled).mpr rfl
  cases (hawaits'.queue_of_unhandled hbusy hunhandled).mp hempty

end Graphics
end PlayStation
