import PlayStation.CommandLine.Converter
import PlayStation.CommandLine.Runner
import PlayStation.Proofs.Graphics.DumpPicture

/-!
# From a dump to a picture

The programs run in a world of named files (`World`).  What the one writes as a dump of its
pixel store, the other makes a picture of, and the picture shows that store; a file of any
other size is refused, and nothing is written (`dump_becomes_picture`).
-/

namespace PlayStation.CommandLine

/-- Files, some of which can be written, and a terminal. -/
structure World where
  files : String → Option ByteArray := fun _ => none
  writable : String → Bool := fun _ => true
  environment : String → Option String := fun _ => none
  printed : String := ""
  complaints : String := ""

namespace World

/-- The world with other contents of a file. -/
def put (w : World) (path : String) (contents : ByteArray) : World :=
  { w with files := fun name => if name = path then some contents else w.files name }

/-- The world with more on the standard output. -/
def print (w : World) (text : String) : World :=
  { w with printed := w.printed ++ text }

/-- The world with more on the standard error. -/
def complain (w : World) (text : String) : World :=
  { w with complaints := w.complaints ++ text }

/-- A file that cannot be written stays as it is. -/
instance : Host (StateM World) where
  load path := do return (← get).files path
  present path := do return ((← get).files path).isSome
  loadNearest name := do return (← get).files name
  environment name := do return (← get).environment name
  save path contents := modifyGet fun w =>
    if w.writable path then (true, w.put path contents) else (false, w)
  print text := modify (·.print text)
  printError text := modify (·.complain text)
  log program level message := modify (·.complain s!"[{level.name} {program}] {message}")

section
variable {w w' : World} {α β : Type}

/-- A program runs its first step and then, in the world that it leaves, the rest. -/
theorem run_bind {step : StateM World α} {a : α} (h : step.run w = (a, w'))
    (rest : α → StateM World β) : (step >>= rest).run w = (rest a).run w' := by
  rw [StateT.run_bind, h]
  rfl

/-- So does a program that may fail, when its first step does not. -/
theorem run_lift_bind {ε : Type} {step : StateM World α} {a : α} (h : step.run w = (a, w'))
    (rest : α → ExceptT ε (StateM World) β) :
    (ExceptT.lift step >>= rest).run.run w = (rest a).run.run w' := by
  rw [ExceptT.run_bind_lift]
  exact run_bind h _

/-- A file that is there is read, and nothing changes. -/
theorem run_load {path : String} {contents : ByteArray} (h : w.files path = some contents) :
    (Host.load (m := StateM World) path).run w = (some contents, w) :=
  congrArg (·, w) h

/-- A file that can be written gets its contents. -/
theorem run_save {path : String} (h : w.writable path = true) (contents : ByteArray) :
    (Host.save (m := StateM World) path contents).run w = (true, w.put path contents) :=
  if_pos h

end
end World

variable {w : World}

/-- A message is written, or it is held back. -/
theorem run_say (shown? : Verbosity → String → Option String) (level : Verbosity)
    (message : String) :
    ∃ text, (Runner.say (m := ExceptT Error (StateM World)) shown? level message).run.run w =
      (.ok (), w.complain text) := by
  unfold Runner.say
  cases shown? level message with
  | some text => exact ⟨_, rfl⟩
  | none =>
      refine ⟨"", ?_⟩
      rw [World.complain, String.append_empty]
      rfl

/-- The program that runs a machine writes the dump of its pixel store. -/
theorem run_writeDump (shown? : Verbosity → String → Option String) (machine : Machine)
    {path : String} (hwritable : w.writable path = true) :
    ∃ text, (Runner.writeDump (m := StateM World) shown? machine (some path)).run.run w =
      (.ok (), (w.put path machine.board.graphics.vram.toBytes).complain text) := by
  generalize hbytes : machine.board.graphics.vram.toBytes = bytes
  obtain ⟨text, hsay⟩ :=
    run_say (w := w.put path bytes) shown? .info s!"VRAM written to {path}"
  refine ⟨text, ?_⟩
  unfold Runner.writeDump
  dsimp only
  rw [hbytes]
  refine (World.run_lift_bind (World.run_save hwritable bytes) _).trans ?_
  rw [if_pos rfl, hsay]

/-- The converter writes the picture of a dump. -/
theorem run_convert {request : Converter.Request} {dump picture : ByteArray}
    (hdump : w.files request.input = some dump) (hpicture : Picture.ofDump? dump = some picture)
    (hwritable : w.writable request.output = true) :
    ∃ text, (Converter.convert (m := StateM World) request).run w =
      (0, (w.put request.output picture).print text) := by
  unfold Converter.convert
  rw [World.run_bind (World.run_load hdump)]
  dsimp only
  rw [hpicture]
  dsimp only
  rw [World.run_bind (World.run_save hwritable picture), if_pos rfl]
  exact ⟨_, rfl⟩

/-- It refuses a file that is no dump. -/
theorem run_convert_of_size {request : Converter.Request} {contents : ByteArray}
    (hfile : w.files request.input = some contents) (hsize : contents.size ≠ Picture.dumpSize) :
    (Converter.convert (m := StateM World) request).run w =
      (1, w.complain <| s!"Error: {request.input} is {contents.size} bytes, " ++
        "expected 1048576 (1024×512 16-bit pixels)\n") := by
  have hnone : Picture.ofDump? contents = none := dif_neg hsize
  unfold Converter.convert
  rw [World.run_bind (World.run_load hfile)]
  dsimp only
  rw [hnone]
  refine congrArg (fun message => ((1 : UInt32), w.complain message)) ?_
  have hdumpSize : Picture.dumpSize.repr = "1048576" := rfl
  have hexpected : "expected 1048576 (1024×512 16-bit pixels)\n" =
      "expected " ++ "1048576" ++ " (1024×512 16-bit pixels)" ++ "\n" := rfl
  dsimp only [toString]
  rw [hdumpSize, hexpected]
  simp only [String.append_assoc]

/-- **A dump becomes a picture.**

* The file that a run writes as the dump of its pixel store is accepted by the converter,
  whichever messages are shown and however, and the picture that it writes is a header for
  1024 columns and 512 rows and behind it, for each pixel, the channels of its colour.
* Of a file of any other size the converter complains, and it writes nothing. -/
theorem dump_becomes_picture :
    (∀ (machine : Machine) (shown? : Verbosity → String → Option String) (path : String)
        (w : World), w.writable path = true →
      ∃ dump said,
        (Runner.writeDump (m := StateM World) shown? machine (some path)).run.run w =
          (.ok (), (w.put path dump).complain said) ∧
        ∀ (request : Converter.Request) (later : World),
          later.files request.input = some dump → later.writable request.output = true →
          ∃ body said,
            (Converter.convert (m := StateM World) request).run later =
              (0, (later.put request.output ("P6\n1024 512\n255\n".toUTF8 ++ body)).print said) ∧
            Picture.Shows machine.board.graphics.vram body) ∧
    ∀ (request : Converter.Request) (w : World) (contents : ByteArray),
      w.files request.input = some contents → contents.size ≠ 2 * 1024 * 512 →
      (Converter.convert (m := StateM World) request).run w =
        (1, w.complain <| s!"Error: {request.input} is {contents.size} bytes, " ++
          "expected 1048576 (1024×512 16-bit pixels)\n") := by
  refine ⟨?dump, fun _ _ _ hfile hsize => run_convert_of_size hfile hsize⟩
  intro machine shown? path w hwritable
  obtain ⟨said, hdumped⟩ := run_writeDump shown? machine hwritable
  refine ⟨_, said, hdumped, ?_⟩
  intro request later hdump houtput
  obtain ⟨said, hconverted⟩ := run_convert hdump (Picture.ofDump?_toBytes _) houtput
  exact ⟨_, said, hconverted, Picture.shows_bodyOf _⟩

/-- A dump of the store of a new machine, in a world of one file with one byte and where every
message is shown as it is. -/
theorem new_dump_becomes_picture :
    let w : World := { files := fun path => if path = "short" then some ⟨#[0]⟩ else none }
    (∃ dump said,
      (Runner.writeDump (m := StateM World) (fun _ message => some message) (.initial {})
          (some "raw")).run.run w =
        (.ok (), (w.put "raw" dump).complain said) ∧
      ∃ body said,
        (Converter.convert (m := StateM World) { input := "raw" }).run (w.put "raw" dump) =
          (0, ((w.put "raw" dump).put "vram.ppm"
            ("P6\n1024 512\n255\n".toUTF8 ++ body)).print said) ∧
        body.size = 3 * 1024 * 512) ∧
    (Converter.convert (m := StateM World) { input := "short" }).run w =
      (1, w.complain "Error: short is 1 bytes, expected 1048576 (1024×512 16-bit pixels)\n") := by
  intro w
  refine ⟨?_, dump_becomes_picture.2 { input := "short" } w ⟨#[0]⟩ rfl (by decide)⟩
  obtain ⟨dump, said, hdumped, hconvert⟩ :=
    dump_becomes_picture.1 (.initial {}) (fun _ message => some message) "raw" w rfl
  obtain ⟨body, said', hconverted, hshows⟩ :=
    hconvert { input := "raw" } (w.put "raw" dump) rfl rfl
  exact ⟨dump, said, hdumped, body, said', hconverted, hshows.size⟩

end PlayStation.CommandLine
