import PlayStation.Proofs.Graphics.Reachable
import PlayStation.Proofs.Graphics.Rectangle

/-!
# Upload and read-back

An upload changes the pixels of its rectangle to the half words of its data, and
nothing else but the queue (`Uploaded`).  A download of the same rectangle then
makes the reads of the drawing port return the data again (`upload_readBack`).

Both commands have a header of three words (`gathered`).  The data words of the
upload are put one by one (`uploaded_data`), and the reads follow them one by one
(`readWords_eq`); each is an induction on the words that are left.
-/

namespace PlayStation

/-- The data words of an upload as they are read back: a half word behind the last
pixel is 0. -/
def Transfer.readBack (t : Transfer) : List UInt32 → List UInt32
  | [] => []
  | [word] => [if t.pixelCount % 2 = 1 then word &&& 0xFFFF else word]
  | word :: next :: rest => word :: t.readBack (next :: rest)

namespace Graphics

variable {g after : Graphics} {pending : List UInt32} {policy : UnhandledCommand}

/-! ## The header of a copy -/

/-- A word that does not complete its command changes nothing but what the unit
keeps of the command, unless it is a pixel word. -/
theorem gathered (h : Awaits g pending) (word : UInt32)
    (hhandled : Command.ofOpcode (opcodeOf ((pending ++ [word]).headD 0)) ≠ .unhandled)
    (hincomplete : isComplete (pending ++ [word]) = false) (hheader : pending.length < 3) :
    (g.writeDrawing word).atRest = g.atRest ∧ Awaits (g.writeDrawing word) (pending ++ [word]) := by
  obtain ⟨hunit, -, hawaits⟩ := arrived_writeDrawing h word fun hnot => absurd hnot hhandled
  rw [hincomplete] at hawaits
  refine ⟨hunit.trans ?_, hawaits⟩
  unfold arrive
  dsimp only
  split
  · split
    · simp only [List.length_cons] at hheader
      omega
    · rfl
  · rw [hincomplete]
    rfl

/-- The first two words of a copy wait for the third. -/
theorem gathered_two (h : Awaits g []) {first : UInt32} (position : UInt32)
    (hopcode : opcodeOf first = 0xA0 ∨ opcodeOf first = 0xC0) :
    ((g.writeDrawing first).writeDrawing position).atRest = g.atRest ∧
      Awaits ((g.writeDrawing first).writeDrawing position) [first, position] := by
  have hhandled : Command.ofOpcode (opcodeOf first) ≠ .unhandled := by
    rcases hopcode with hopcode | hopcode <;> rw [hopcode] <;> decide
  have hincomplete {arguments : List UInt32} (hshort : arguments.length < 2) :
      isComplete (first :: arguments) = false := by
    rcases hopcode with hupload | hdownload
    · rw [isComplete, lengthOf?_of_short_upload hupload hshort]
    · rw [isComplete_of_lengthOf? (lengthOf?_of_download hdownload arguments),
        CommandLength.reachedBy, decide_eq_false_iff_not, List.length_cons]
      omega
  obtain ⟨hunit, hfirst⟩ := gathered h first hhandled (hincomplete (by decide)) (by decide)
  obtain ⟨hunit', hsecond⟩ := gathered hfirst position hhandled (hincomplete (by simp)) (by simp)
  exact ⟨hunit'.trans hunit, hsecond⟩

/-! ## The upload -/

/-- The third word of an upload makes it wait for its pixel words. -/
theorem uploading_of_header (h : Awaits g []) {first : UInt32} (hopcode : opcodeOf first = 0xA0)
    (position size : UInt32) :
    ([first, position, size].foldl writeDrawing g).atRest = g.atRest ∧
      Awaits ([first, position, size].foldl writeDrawing g) [first, position, size] := by
  obtain ⟨hunit, hawaits⟩ := gathered_two h position (.inl hopcode)
  have hhandled : Command.ofOpcode (opcodeOf first) ≠ .unhandled := by
    rw [hopcode]
    decide
  have hpositive := Transfer.ofWords_wordCount_pos position size
  have hincomplete : isComplete [first, position, size] = false := by
    rw [isComplete_of_lengthOf? (lengthOf?_of_upload hopcode []), CommandLength.reachedBy,
      decide_eq_false_iff_not]
    simp only [List.length_cons, List.length_nil]
    omega
  obtain ⟨hunit', hawaits'⟩ := gathered hawaits size hhandled hincomplete (by simp)
  exact ⟨hunit'.trans hunit, hawaits'⟩

/-- **The data of an upload.**  The words that an upload still waits for are put where
they belong, and with the last one the command ends. -/
theorem uploaded_data {first position size : UInt32} (hopcode : opcodeOf first = 0xA0)
    {done rest : List UInt32} (h : Awaits g (first :: position :: size :: done))
    (hrest : rest ≠ [])
    (hlength : done.length + rest.length = (Transfer.ofWords position size).wordCount) :
    (rest.foldl writeDrawing g).atRest =
        { g.atRest with
          vram := g.vram.putPixels (.ofWords position size) (2 * done.length)
            (rest.flatMap pixelsOf) } ∧
      Awaits (rest.foldl writeDrawing g) [] := by
  have hhandled : Command.ofOpcode (opcodeOf first) ≠ .unhandled := by
    rw [hopcode]
    decide
  induction rest generalizing g done with
  | nil => exact absurd rfl hrest
  | cons word rest ih =>
      obtain ⟨hunit, -, hawaits⟩ := arrived_writeDrawing h word fun hnot => absurd hnot hhandled
      rw [arrive_pixels hopcode] at hunit
      rw [isComplete_of_pixels hopcode] at hawaits
      rw [List.length_cons] at hlength
      cases rest with
      | nil =>
          rw [if_pos (by rw [decide_eq_true_eq, ← hlength]; exact Nat.le_refl _)] at hawaits
          exact ⟨hunit, hawaits⟩
      | cons next rest =>
          rw [if_neg (by rw [decide_eq_true_eq, ← hlength, List.length_cons]; omega)] at hawaits
          have hdone : (done ++ [word]).length = done.length + 1 := List.length_append
          change Awaits _ (first :: position :: size :: (done ++ [word])) at hawaits
          obtain ⟨hunit', hidle⟩ := ih hawaits (List.cons_ne_nil _ _) (by rw [hdone]; omega)
          have hvram : (g.writeDrawing word).vram =
              (g.atRest.putData (.ofWords position size) done.length word).vram := by
            have hsame := congrArg vram hunit
            exact hsame
          refine ⟨?_, hidle⟩
          rw [List.foldl_cons, hunit', hunit, hvram, hdone]
          rfl

/-- What an upload of a rectangle does: the pixels of the rectangle, row by row, are
the half words of the data, low half first, and nothing else has changed. -/
structure Uploaded (g after : Graphics) (t : Transfer) (data : List UInt32) : Prop where
  idle : after.progress.inProgress = false
  queue : after.queue.toList = []
  inside : ∀ i < t.width, ∀ j < t.height,
    (data.flatMap pixelsOf)[j * t.width + i]? =
      some (after.vram.get ((t.x + i) % 1024) ((t.y + j) % 512))
  outside : ∀ x < 1024, ∀ y < 512,
    (∀ i < t.width, ∀ j < t.height, ((t.x + i) % 1024, (t.y + j) % 512) ≠ (x, y)) →
      after.vram.get x y = g.vram.get x y
  others : after =
    { g with vram := after.vram, queue := after.queue, progress := after.progress }

/-- Two idle units that agree at rest but for the pixels. -/
theorem eq_of_atRest {v : Vram} (hrest : after.atRest = { g.atRest with vram := v })
    (hg : Awaits g []) (hafter : Awaits after []) :
    after = { g with vram := after.vram, queue := after.queue, progress := after.progress } := by
  have hvram : after.vram = v := congrArg vram hrest
  have hupload := hafter.upload_eq_none.trans hg.upload_eq_none.symm
  rw [hvram]
  exact eq_of_atRest_eq (g := { g with vram := v }) hrest hupload

/-- Each word holds two pixels. -/
theorem length_flatMap_pixelsOf (data : List UInt32) :
    (data.flatMap pixelsOf).length = 2 * data.length := by
  induction data with
  | nil => rfl
  | cons word rest ih =>
      rw [List.flatMap_cons, List.length_append, ih, List.length_cons]
      simp only [pixelsOf, List.length_cons, List.length_nil]
      omega

/-- The words of an upload hold all its pixels, and one more if their number is odd. -/
theorem pixelCount_le_of_length {t : Transfer} {data : List UInt32}
    (hdata : data.length = t.wordCount) : t.pixelCount ≤ (data.flatMap pixelsOf).length := by
  rw [length_flatMap_pixelsOf, hdata, Transfer.wordCount]
  omega

/-- **The upload** ends with the last of its data words and has done what it should. -/
theorem uploaded_of_data (h : Awaits g []) {first : UInt32} (hopcode : opcodeOf first = 0xA0)
    {position size : UInt32} {data : List UInt32}
    (hdata : data.length = (Transfer.ofWords position size).wordCount) :
    let after := (first :: position :: size :: data).foldl writeDrawing g
    Uploaded g after (.ofWords position size) data ∧ Awaits after [] ∧
      ∀ {n : Nat}, n < (Transfer.ofWords position size).pixelCount → (data.flatMap pixelsOf)[n]? =
        some (after.vram.pixelAt ((Transfer.ofWords position size).place n)) := by
  intro after
  have ht := Transfer.ofWords_fits position size
  have hpositive := Transfer.ofWords_wordCount_pos position size
  obtain ⟨hheader, hwaiting⟩ := uploading_of_header h hopcode position size
  obtain ⟨hunit, hidle⟩ := uploaded_data hopcode hwaiting
    (List.ne_nil_of_length_pos (hdata ▸ hpositive)) ((Nat.zero_add _).trans hdata)
  have hbefore : ([first, position, size].foldl writeDrawing g).vram = g.vram := by
    have hsame := congrArg vram hheader
    exact hsame
  rw [hheader, hbefore] at hunit
  have hvram :
      after.vram = g.vram.putPixels (.ofWords position size) 0 (data.flatMap pixelsOf) := by
    have hsame := congrArg vram hunit
    exact hsame
  have hseen {n : Nat} (hn : n < (Transfer.ofWords position size).pixelCount) :
      (data.flatMap pixelsOf)[n]? =
        some (after.vram.pixelAt ((Transfer.ofWords position size).place n)) := by
    rw [hvram]
    exact Vram.getElem?_eq_pixelAt ht g.vram (pixelCount_le_of_length hdata) hn
  refine ⟨⟨?_, hidle.queue_eq_nil, ?_, ?_, eq_of_atRest hunit h hidle⟩, hidle, hseen⟩
  · exact Bool.eq_false_iff.mpr fun hbusy => hidle.inProgress_iff.mp hbusy rfl
  · intro i hi j hj
    rw [hseen (Transfer.mul_add_lt_pixelCount hi hj), Transfer.place_mul_add hi j]
    rfl
  · intro x hx y hy houtside
    rw [hvram]
    have hnowhere : ∀ n < (Transfer.ofWords position size).pixelCount,
        (Transfer.ofWords position size).place n ≠ (x, y) := fun n hn =>
      houtside _ (Nat.mod_lt _ ht.width_pos) _ (Transfer.div_lt_height ht hn)
    change Vram.pixelAt _ (x, y) = Vram.pixelAt _ (x, y)
    exact Vram.pixelAt_putPixels_outside _ _ _ hx hy hnowhere

/-! ## The reads -/

/-- The words that a number of reads of the drawing port return, and the unit behind
them. -/
def readWords : Nat → Graphics → List UInt32 × Graphics
  | 0, g => ([], g)
  | count + 1, g =>
    let (word, g) := g.readDrawing
    let (words, g) := g.readWords count
    (word :: words, g)

/-- The word of two pixels. -/
theorem pixels_recombine (word : UInt32) :
    word.toUInt16.toUInt32 ||| ((word >>> 16).toUInt16.toUInt32 <<< 16) = word := by
  have hlt := word.toNat_lt
  have hlow : word.toUInt16.toUInt32.toNat = word.toNat % 65536 := rfl
  have hhigh : ((word >>> 16).toUInt16.toUInt32 <<< 16).toNat = (word.toNat / 65536) <<< 16 := by
    simp only [UInt32.toNat_shiftLeft, UInt32.toNat_shiftRight, UInt16.toNat_toUInt32,
      UInt32.toNat_toUInt16, UInt32.reduceToNat, Nat.reduceMod, Nat.reducePow, Nat.shiftLeft_eq,
      Nat.shiftRight_eq_div_pow]
    omega
  apply UInt32.toNat_inj.mp
  rw [UInt32.toNat_or, hhigh, hlow, Nat.or_comm,
    ← Nat.shiftLeft_add_eq_or_of_lt (Nat.mod_lt _ (by decide)), Nat.shiftLeft_eq]
  omega

/-- The first pixel of a word is its lower half. -/
theorem lowPixel_eq (word : UInt32) : word.toUInt16.toUInt32 = word &&& 0xFFFF := by
  apply UInt32.toNat_inj.mp
  rw [UInt32.toNat_and]
  exact (Nat.and_two_pow_sub_one_eq_mod _ 16).symm

/-- **One read.**  Behind `k` words a read returns the next two pixels; behind the last
pixel the high half is 0. -/
theorem readDrawing_eq {t : Transfer} (hw : 0 < t.width) {k : Nat} (hk : k < t.wordCount)
    (hreadback : g.readback = some (t.after (2 * k))) {word : UInt32}
    (hlow : word.toUInt16 = g.vram.pixelAt (t.place (2 * k)))
    (hhigh : 2 * k + 1 < t.pixelCount →
      (word >>> 16).toUInt16 = g.vram.pixelAt (t.place (2 * k + 1))) :
    let shown := if 2 * k + 1 < t.pixelCount then word else word &&& 0xFFFF
    g.readDrawing = (shown,
      { g with
        readback := if k + 1 < t.wordCount then some (t.after (2 * (k + 1))) else none
        latch := shown }) := by
  obtain ⟨hfirst, hsecond⟩ := t.lt_pixelCount hk
  unfold readDrawing
  rw [hreadback]
  dsimp only
  rw [nextPixel_after _ hw, if_pos hfirst]
  dsimp only
  rw [nextPixel_after _ hw, ← hlow]
  by_cases hn : 2 * k + 1 < t.pixelCount
  · rw [if_pos hn, if_pos hn, ← hhigh hn]
    dsimp only
    rw [pixels_recombine, Transfer.isDone_after hw]
    by_cases hmore : k + 1 < t.wordCount
    · have hnext := (t.lt_pixelCount hmore).1
      rw [if_pos hmore, if_neg (by rw [decide_eq_true_eq]; omega)]
      rfl
    · have hlast : t.pixelCount ≤ 2 * k + 1 + 1 := by
        rw [Transfer.wordCount] at hmore
        omega
      rw [if_neg hmore, if_pos (by rw [decide_eq_true_eq]; exact hlast)]
  · have hzero : (0 : UInt16).toUInt32 <<< 16 = 0 := by decide
    rw [if_neg hn, if_neg hn, if_neg fun hmore => hn (hsecond hmore)]
    dsimp only
    rw [hzero, UInt32.or_zero, lowPixel_eq, Transfer.isDone_after hw,
      if_pos (by rw [decide_eq_true_eq]; omega)]

/-- The pixels from `2 * k` on are those that the words make up. -/
def PixelsFrom (g : Graphics) (t : Transfer) (k : Nat) (words : List UInt32) : Prop :=
  ∀ n < t.pixelCount, 2 * k ≤ n →
    (words.flatMap pixelsOf)[n - 2 * k]? = some (g.vram.pixelAt (t.place n))

/-- Behind a word that shows its pixels the remaining words show theirs. -/
theorem PixelsFrom.tail {t : Transfer} {k : Nat} {word : UInt32} {rest : List UInt32}
    (h : PixelsFrom g t k (word :: rest)) : PixelsFrom g t (k + 1) rest := by
  intro n hn hle
  have hshift : n - 2 * k = n - 2 * (k + 1) + 2 := by omega
  have hpixel := h n hn (by omega)
  rw [hshift] at hpixel
  exact hpixel

/-- The next read, where the pixels are known to make up a word. -/
theorem PixelsFrom.readDrawing_eq {t : Transfer} {k : Nat} {word : UInt32} {rest : List UInt32}
    (h : PixelsFrom g t k (word :: rest)) (hw : 0 < t.width) (hk : k < t.wordCount)
    (hreadback : g.readback = some (t.after (2 * k))) :
    let shown := if 2 * k + 1 < t.pixelCount then word else word &&& 0xFFFF
    g.readDrawing = (shown,
      { g with
        readback := if k + 1 < t.wordCount then some (t.after (2 * (k + 1))) else none
        latch := shown }) := by
  have hlow := h (2 * k) (t.lt_pixelCount hk).1 (Nat.le_refl _)
  have hhigh (hn : 2 * k + 1 < t.pixelCount) := h (2 * k + 1) hn (Nat.le_succ _)
  rw [Nat.sub_self] at hlow
  rw [Nat.add_sub_cancel_left] at hhigh
  exact Graphics.readDrawing_eq hw hk hreadback (Option.some.inj hlow) fun hn =>
    Option.some.inj (hhigh hn)

/-- **The reads** of a rectangle return the words that its pixels make up, and the last
one stays. -/
theorem readWords_eq {t : Transfer} (hw : 0 < t.width) {k : Nat} {word : UInt32}
    {rest : List UInt32} (hlength : k + (rest.length + 1) = t.wordCount)
    (hreadback : g.readback = some (t.after (2 * k))) (hpixels : PixelsFrom g t k (word :: rest)) :
    let reads := g.readWords (rest.length + 1)
    reads.1 = t.readBack (word :: rest) ∧ reads.1.getLast? = some reads.2.latch ∧
      reads.2.readback = none := by
  -- Behind `k` reads the cursor is `2 * k` pixels on; the last word may hold a single pixel.
  induction rest generalizing g k word with
  | nil =>
      have hk : k + 1 = t.wordCount := hlength
      have hread := hpixels.readDrawing_eq hw (by omega) hreadback
      rw [if_neg (show ¬ k + 1 < t.wordCount by omega)] at hread
      have hodd : 2 * k + 1 < t.pixelCount ↔ ¬ t.pixelCount % 2 = 1 := by
        rw [Transfer.wordCount] at hk
        omega
      dsimp only [List.length_nil, readWords]
      rw [hread]
      refine ⟨?_, rfl, rfl⟩
      rw [Transfer.readBack]
      simp only [hodd, ite_not]
  | cons next rest ih =>
      have hk : k + 1 < t.wordCount := by
        rw [List.length_cons] at hlength
        omega
      have hread := hpixels.readDrawing_eq hw (by omega) hreadback
      rw [if_pos ((t.lt_pixelCount (by omega)).2 hk), if_pos hk] at hread
      have hlength' : k + 1 + (rest.length + 1) = t.wordCount := by
        rw [List.length_cons] at hlength
        omega
      obtain ⟨hwords, hlast, hdone⟩ := ih
        (g := { g with readback := some (t.after (2 * (k + 1))), latch := word }) hlength' rfl
        hpixels.tail
      rw [List.length_cons, readWords, hread]
      dsimp only
      refine ⟨?_, ?_, hdone⟩
      · rw [hwords, Transfer.readBack]
      · rw [List.getLast?_cons_of_ne_nil ?_]
        · exact hlast
        · intro hnil
          rw [hnil] at hlast
          cases hlast

/-! ## Both together -/

/-- The header of a download makes the rectangle readable, and changes nothing else. -/
theorem readable_of_header (h : Awaits g []) {first : UInt32} (hopcode : opcodeOf first = 0xC0)
    (position size : UInt32) :
    ([first, position, size].foldl writeDrawing g).vram = g.vram ∧
      ([first, position, size].foldl writeDrawing g).readback =
        some (.ofWords position size) := by
  have hcommand : Command.ofOpcode (opcodeOf first) = .download :=
    (ofOpcode_eq_iff _).2.mpr hopcode
  obtain ⟨hunit, hawaits⟩ := gathered_two h position (.inr hopcode)
  obtain ⟨hunit', -, -⟩ := arrived_writeDrawing hawaits size fun hnot =>
    nomatch hcommand.symm.trans hnot
  rw [hunit, arrive_of_length? rfl hcommand rfl] at hunit'
  have hvram := congrArg vram hunit'
  have hreadback := congrArg readback hunit'
  exact ⟨hvram, hreadback⟩

/-- **Upload and read-back.**  Take any reachable unit without a command in progress,
any rectangle, wherever it wraps, and as many data words as it has pairs of pixels.

* Writing an upload of the data sets the pixels of the rectangle and changes
  nothing else (`Uploaded`).
* Writing a download of the same rectangle then makes as many reads of the drawing
  port return the data words again, without a half word that belongs to no pixel
  (`Transfer.readBack`); the next read returns the last of them once more. -/
theorem upload_readBack {policy : UnhandledCommand} {g : Graphics} (hreachable : Reachable policy g)
    (hidle : g.progress.inProgress = false) {a c : UInt32} (ha : opcodeOf a = 0xA0)
    (hc : opcodeOf c = 0xC0) (position size : UInt32) (data : List UInt32)
    (hdata : data.length = (Transfer.ofWords position size).wordCount) :
    let t := Transfer.ofWords position size
    let after := (a :: position :: size :: data).foldl writeDrawing g
    let reads := ([c, position, size].foldl writeDrawing after).readWords t.wordCount
    Uploaded g after t data ∧ reads.1 = t.readBack data ∧
      ∃ last, reads.1.getLast? = some last ∧ reads.2.readDrawing = (last, reads.2) := by
  intro t after reads
  obtain ⟨-, pending, hawaits⟩ := hreachable.settled
  obtain rfl := hawaits.pending_eq_nil hidle
  obtain ⟨huploaded, hafter, hpixels⟩ := uploaded_of_data hawaits ha hdata
  obtain ⟨hvram, hreadback⟩ := readable_of_header hafter hc position size
  have hpositive := Transfer.ofWords_wordCount_pos position size
  obtain ⟨word, rest, rfl⟩ := List.exists_cons_of_length_pos (hdata ▸ hpositive)
  rw [← Transfer.after_zero] at hreadback
  obtain ⟨hwords, hlast, hdone⟩ := readWords_eq (Transfer.ofWords_fits position size).width_pos
    (k := 0) ((Nat.zero_add _).trans hdata) hreadback fun n hn _ => by
      rw [hvram]
      exact hpixels hn
  rw [← List.length_cons, hdata] at hwords hlast hdone
  refine ⟨huploaded, hwords, _, hlast, ?_⟩
  rw [readDrawing, hdone]

/-- Three pixels that wrap at the right edge: the fourth half word comes back as 0. -/
theorem upload_readBack_of_three :
    let after := [0xA0000000, 0x01FF03FF, 0x00010003, 0x22221111, 0x44443333].foldl writeDrawing
      (.initial .drop)
    let reads := ([0xC0000000, 0x01FF03FF, 0x00010003].foldl writeDrawing after).readWords 2
    Uploaded (.initial .drop) after (.ofWords 0x01FF03FF 0x00010003) [0x22221111, 0x44443333] ∧
      reads.1 = [0x22221111, 0x00003333] ∧ reads.2.readDrawing.1 = 0x00003333 := by
  intro after reads
  obtain ⟨huploaded, hwords, last, hlast, hnext⟩ :=
    upload_readBack (g := .initial .drop) .initial rfl (a := 0xA0000000) (c := 0xC0000000)
      (by decide) (by decide) 0x01FF03FF 0x00010003 [0x22221111, 0x44443333] (by decide)
  have hread : reads.1 = [0x22221111, 0x00003333] := hwords.trans (by decide)
  refine ⟨huploaded, hread, ?_⟩
  have hlast' : some last = some 0x00003333 := hlast.symm.trans (congrArg List.getLast? hread)
  rw [← Option.some.inj hlast']
  exact congrArg Prod.fst hnext

end Graphics
end PlayStation
