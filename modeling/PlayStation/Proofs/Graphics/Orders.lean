import PlayStation.Proofs.Bits
import PlayStation.Proofs.Graphics.Reachable

/-!
# What a drawing unit has been told

An `Order` is what the drawing unit carries out as one: a command of the drawing port
with all its words, or a word of the control port.  The words that are written to a unit
make up a log of its orders (`Log.perform`), in which the words of a command count only
as such.

A setting is given by the orders of one or two kinds, and a reset gives every setting its
first value (`Order.given?`).  Its value is the one that was given last (`latest`).
-/

namespace PlayStation

open Bits

/-- What a drawing unit carries out as one. -/
inductive Order where
  /-- A command of the drawing port, with all its words. -/
  | command (words : List UInt32)
  /-- A word of the control port. -/
  | control (word : UInt32)
  deriving DecidableEq, Repr

/-- The settings of a drawing unit that its ports show. -/
inductive Setting where
  | texturePage
  | drawMode
  | textureWindow
  | topLeft
  | bottomRight
  | offset
  | masks
  | displayDisable
  | dmaDirection
  | displayMode
  deriving DecidableEq, Repr

namespace Setting

/-- The opcode of the command that gives a setting. -/
def opcode? : Setting → Option UInt8
  | texturePage | drawMode => some 0xE1
  | textureWindow => some 0xE2
  | topLeft => some 0xE3
  | bottomRight => some 0xE4
  | offset => some 0xE5
  | masks => some 0xE6
  | displayDisable | dmaDirection | displayMode => none

/-- The top byte of the control word that gives a setting. -/
def code? : Setting → Option Nat
  | displayDisable => some 0x03
  | dmaDirection => some 0x04
  | displayMode => some 0x08
  | _ => none

/-- The word that a setting has from the start. -/
def initial : Setting → UInt32
  | bottomRight => (1023 : UInt32) ||| (511 : UInt32) <<< 10
  | displayDisable => 1
  | _ => 0

end Setting

/-- The opcodes of polygons with a texture. -/
def isTexturedPolygon (opcode : UInt8) : Bool :=
  (0x24 ≤ opcode && opcode ≤ 0x27) || (0x2C ≤ opcode && opcode ≤ 0x2F)

namespace Order

/-- The word that an order gives a setting.  A textured polygon gives the texture page,
in the high half of its fifth word, and a reset gives everything its first word. -/
def given? (setting : Setting) : Order → Option UInt32
  | command words =>
      if setting.opcode? = some (opcodeOf (words.headD 0)) then some (words.headD 0)
      else if setting = .texturePage ∧ isTexturedPolygon (opcodeOf (words.headD 0)) then
        some (words.getD 4 0 >>> 16)
      else none
  | control word =>
      if (word >>> 24).toNat = 0x00 then some setting.initial
      else if setting.code? = some (word >>> 24).toNat then some word
      else none

end Order

/-- The word that a setting was given last. -/
def latest (orders : List Order) (setting : Setting) : UInt32 :=
  (orders.filterMap (Order.given? setting)).getLastD setting.initial

/-- The words of all settings after an order. -/
def Order.update (value : Setting → UInt32) (order : Order) (setting : Setting) : UInt32 :=
  (order.given? setting).getD (value setting)

/-- One order more updates the settings. -/
theorem latest_concat (orders : List Order) (order : Order) :
    latest (orders ++ [order]) = order.update (latest orders) := by
  funext setting
  rw [latest, Order.update, List.filterMap_append]
  cases hgiven : order.given? setting with
  | none => rw [List.filterMap_cons_none hgiven, List.filterMap_nil, List.append_nil]; rfl
  | some word =>
      rw [List.filterMap_cons_some hgiven, List.filterMap_nil, List.getLastD_concat]
      rfl

/-! ## The log -/

/-- The orders that a drawing unit has been given, and the words of the command in
progress. -/
structure Log where
  orders : List Order
  pending : List UInt32
  deriving DecidableEq, Repr

namespace Log

/-- A word of the drawing port ends the command in progress or is one more of its
words. -/
def drawing (log : Log) (word : UInt32) : Log :=
  let words := log.pending ++ [word]
  if isComplete words then ⟨log.orders ++ [.command words], []⟩ else ⟨log.orders, words⟩

/-- A word of the control port is an order, which may abandon the command in progress. -/
def control (log : Log) (word : UInt32) : Log :=
  ⟨log.orders ++ [.control word], if abandons word then [] else log.pending⟩

/-- A write at an offset from the first port. -/
def write (log : Log) (offset word : UInt32) : Log :=
  if offset &&& 4 = 0 then log.drawing word else log.control word

/-- What an operation adds to the log.  A reset from outside is as good as the order to
reset; reading and writing pixels are no orders. -/
def perform (log : Log) : Graphics.Operation → Log
  | .write offset word => log.write offset word
  | .dmaWrite _ word => log.write 0 word
  | .reset => log.control 0
  | _ => log

/-- What a sequence of operations adds to the log. -/
def performAll (log : Log) (operations : List Graphics.Operation) : Log :=
  operations.foldl perform log

/-- What an operation adds does not depend on the orders before it. -/
theorem perform_eq (log : Log) (operation : Graphics.Operation) :
    log.perform operation =
      ⟨log.orders ++ (perform ⟨[], log.pending⟩ operation).orders,
        (perform ⟨[], log.pending⟩ operation).pending⟩ := by
  have hdrawing (word : UInt32) : log.drawing word =
      ⟨log.orders ++ (drawing ⟨[], log.pending⟩ word).orders,
        (drawing ⟨[], log.pending⟩ word).pending⟩ := by
    unfold drawing
    dsimp only
    split
    · rfl
    · rw [List.append_nil]
  have hwrite (offset word : UInt32) : log.write offset word =
      ⟨log.orders ++ (write ⟨[], log.pending⟩ offset word).orders,
        (write ⟨[], log.pending⟩ offset word).pending⟩ := by
    unfold write
    split
    · exact hdrawing word
    · rfl
  cases operation with
  | write offset word => exact hwrite offset word
  | dmaWrite clock word => exact hwrite 0 word
  | reset => rfl
  | _ =>
      simp only [perform, List.append_nil]

/-- A log goes on with the orders that the same operations give on their own. -/
theorem performAll_eq (log : Log) (operations : List Graphics.Operation) :
    log.performAll operations =
      ⟨log.orders ++ (performAll ⟨[], log.pending⟩ operations).orders,
        (performAll ⟨[], log.pending⟩ operations).pending⟩ := by
  induction operations generalizing log with
  | nil => simp only [performAll, List.foldl_nil, List.append_nil]
  | cons operation later ih =>
      change (log.perform operation).performAll later =
        ⟨log.orders ++ ((perform ⟨[], log.pending⟩ operation).performAll later).orders,
          ((perform ⟨[], log.pending⟩ operation).performAll later).pending⟩
      rw [ih, ih (perform ⟨[], log.pending⟩ operation), perform_eq log, List.append_assoc]

/-- The log of the operations since power-on. -/
def of (operations : List Graphics.Operation) : Log :=
  performAll ⟨[], []⟩ operations

end Log

/-! ## What orders give -/

set_option maxRecDepth 2000 in
/-- The textured polygons are those whose form has a texture. -/
theorem isTexturedPolygon_eq (opcode : UInt8) :
    isTexturedPolygon opcode =
      match Command.ofOpcode opcode with
      | .polygon form => form.textured
      | _ => false := by
  revert opcode
  exact Bits.forall_byte (by decide)

set_option maxRecDepth 2000 in
/-- There are six setting words. -/
theorem opcode_of_setting (opcode : UInt8) :
    Command.ofOpcode opcode = .setting → opcode = 0xE1 ∨ opcode = 0xE2 ∨ opcode = 0xE3 ∨
      opcode = 0xE4 ∨ opcode = 0xE5 ∨ opcode = 0xE6 := by
  revert opcode
  exact Bits.forall_byte (by decide)

/-- The opcode of a setting belongs to a setting word. -/
theorem ofOpcode_of_opcode? {setting : Setting} {opcode : UInt8}
    (h : setting.opcode? = some opcode) : Command.ofOpcode opcode = .setting := by
  cases setting <;> cases h <;> decide

namespace Order

variable {value : Setting → UInt32} {words : List UInt32} {first : UInt32}

/-- What a setting command gives. -/
theorem update_of_setting {opcode : UInt8} (hopcode : opcodeOf first = opcode)
    (hsetting : Command.ofOpcode opcode = .setting) (arguments : List UInt32)
    (setting : Setting) :
    (command (first :: arguments)).update value setting =
      if setting.opcode? = some opcode then first else value setting := by
  have htextured : isTexturedPolygon opcode = false := by
    rw [isTexturedPolygon_eq, hsetting]
  rw [update, given?, List.headD_cons, hopcode, htextured]
  by_cases hgives : setting.opcode? = some opcode
  · rw [if_pos hgives, if_pos hgives]
    rfl
  · rw [if_neg hgives, if_neg hgives, if_neg (fun h => nomatch h.2)]
    rfl

/-- What a polygon gives. -/
theorem update_of_polygon {form : PolygonForm}
    (h : Command.ofOpcode (opcodeOf (words.headD 0)) = .polygon form) (setting : Setting) :
    (command words).update value setting =
      if setting = .texturePage ∧ form.textured then words.getD 4 0 >>> 16
      else value setting := by
  have hnone : ¬ setting.opcode? = some (opcodeOf (words.headD 0)) :=
    fun hgives => nomatch h.symm.trans (ofOpcode_of_opcode? hgives)
  rw [update, given?, if_neg hnone, isTexturedPolygon_eq, h]
  dsimp only
  rw [apply_ite (Option.getD · (value setting))]
  rfl

/-- A command that is no setting and has no texture gives nothing. -/
theorem update_of_untextured (hsetting : Command.ofOpcode (opcodeOf (words.headD 0)) ≠ .setting)
    (htextured : isTexturedPolygon (opcodeOf (words.headD 0)) = false) :
    (command words).update value = value := by
  funext setting
  have hnone : ¬ setting.opcode? = some (opcodeOf (words.headD 0)) :=
    fun hgives => hsetting (ofOpcode_of_opcode? hgives)
  rw [update, given?, if_neg hnone, htextured, if_neg (fun h => nomatch h.2)]
  rfl

/-- The other commands give nothing. -/
theorem update_of_other (hsetting : Command.ofOpcode (opcodeOf (words.headD 0)) ≠ .setting)
    (hpolygon : ∀ form, Command.ofOpcode (opcodeOf (words.headD 0)) ≠ .polygon form) :
    (command words).update value = value := by
  refine update_of_untextured hsetting ?_
  rw [isTexturedPolygon_eq]
  split
  · rename_i form hform
    exact absurd hform (hpolygon form)
  · rfl

variable {word : UInt32} {code : Nat}

/-- A reset gives every setting its first word. -/
theorem update_of_reset (hcode : (word >>> 24).toNat = 0) :
    (control word).update value = Setting.initial := by
  funext setting
  rw [update, given?, if_pos hcode]
  rfl

/-- What another control word gives. -/
theorem update_of_control (hcode : (word >>> 24).toNat = code) (hreset : code ≠ 0)
    (setting : Setting) :
    (control word).update value setting =
      if setting.code? = some code then word else value setting := by
  rw [update, given?, hcode, if_neg hreset, apply_ite (Option.getD · (value setting))]
  rfl

/-- A control word that no setting belongs to gives nothing. -/
theorem update_of_control_other (hcode : (word >>> 24).toNat = code) (hreset : code ≠ 0)
    (hnone : ∀ setting : Setting, setting.code? ≠ some code) :
    (control word).update value = value := by
  funext setting
  rw [update_of_control hcode hreset, if_neg (hnone setting)]

end Order

/-- A setting command is complete with its first word, so it is never in progress. -/
theorem Graphics.Awaits.not_setting {g : Graphics} {first : UInt32} {rest : List UInt32}
    (h : Awaits g (first :: rest)) : Command.ofOpcode (opcodeOf first) ≠ .setting := by
  intro hsetting
  cases h with
  | queued queue progress upload short =>
      have hone : (Command.ofOpcode (opcodeOf first)).takes = 1 := congrArg Command.takes hsetting
      omega
  | uploading opcode queue progress upload short =>
      cases hsetting.symm.trans ((ofOpcode_eq_iff _).1.mpr opcode)
  | dropping policy command queue progress upload short => cases hsetting.symm.trans command
  | stalled policy command queue progress upload => cases hsetting.symm.trans command

end PlayStation
