import PlayStation.Graphics.Color
import PlayStation.Graphics.Picture

/-!
# The picture of a dump

A dump has the two bytes of each pixel one behind the other (`Vram.data_toBytes`), and a
picture the three channels of each pixel behind its header (`Picture.data_ofDump?`).  The
picture of the dump of a pixel store shows that store (`Picture.ofDump?_toBytes`): the
channel bytes of each pixel are those of its colour, at the place that its row and column
give it (`Picture.Shows`).
-/

namespace PlayStation

/-- Bytes that are pushed piece by piece stand one piece behind the other. -/
theorem data_foldl_push {α : Type} (piece : α → List UInt8) (xs : List α) (bytes : ByteArray) :
    (xs.foldl (fun bytes x => (piece x).foldl ByteArray.push bytes) bytes).data.toList =
      bytes.data.toList ++ xs.flatMap piece := by
  have hpiece (bytes : ByteArray) (l : List UInt8) :
      (l.foldl ByteArray.push bytes).data.toList = bytes.data.toList ++ l := by
    induction l generalizing bytes with
    | nil => rw [List.foldl_nil, List.append_nil]
    | cons byte rest ih =>
        rw [List.foldl_cons, ih, ByteArray.data_push, Array.toList_push, List.append_assoc,
          List.singleton_append]
  induction xs generalizing bytes with
  | nil => rw [List.foldl_nil, List.flatMap_nil, List.append_nil]
  | cons x rest ih => rw [List.foldl_cons, ih, hpiece, List.flatMap_cons, List.append_assoc]

/-- A loop that appends pieces leaves their concatenation. -/
theorem data_fold_push {n : Nat} (piece : (i : Nat) → i < n → List UInt8) (bytes : ByteArray) :
    (n.fold (fun i hi bytes => (piece i hi).foldl ByteArray.push bytes) bytes).data.toList =
      bytes.data.toList ++ (List.finRange n).flatMap fun i => piece i.val i.isLt := by
  rw [Nat.fold_eq_finRange_foldl]
  exact data_foldl_push (fun i : Fin n => piece i.val i.isLt) _ _

namespace Vram

/-- The two bytes of a pixel, low byte first. -/
def pixelBytes (pixel : UInt16) : Vector UInt8 2 :=
  #v[pixel.toUInt8, (pixel >>> 8).toUInt8]

/-- A dump is two bytes for each pixel, row by row. -/
theorem data_toBytes (v : Vram) : v.toBytes.data = (v.pixels.flatMap pixelBytes).toArray := by
  apply Array.toList_inj.mp
  rw [← Vector.flatMap_toArray, Array.toList_flatMap, toBytes, ← Array.foldl_toList]
  exact data_foldl_push (fun pixel => (pixelBytes pixel).toList) _ _

theorem size_toBytes (v : Vram) : v.toBytes.size = Picture.dumpSize := by
  rw [← ByteArray.size_data, data_toBytes, Vector.size_toArray, Picture.dumpSize, Nat.mul_comm]

/-- The bytes of a pixel in the dump. -/
theorem getElem_toBytes (v : Vram) {i : Nat} (hi : i < size)
    (hlow : 2 * i < v.toBytes.size) (hhigh : 2 * i + 1 < v.toBytes.size) :
    v.toBytes[2 * i] = v.pixels[i].toUInt8 ∧
      v.toBytes[2 * i + 1] = (v.pixels[i] >>> 8).toUInt8 := by
  have hdiv : 2 * i / 2 = i ∧ (2 * i + 1) / 2 = i := by omega
  have hmod : 2 * i % 2 = 0 ∧ (2 * i + 1) % 2 = 1 := by omega
  simp only [ByteArray.getElem_eq_getElem_data, data_toBytes, Vector.getElem_toArray,
    Vector.getElem_flatMap, hdiv, hmod]
  exact ⟨rfl, rfl⟩

end Vram

namespace Picture

/-- A picture's bytes behind its header show a pixel store: those of each pixel are the
channels of its colour. -/
structure Shows (v : Vram) (body : ByteArray) : Prop where
  size : body.size = 3 * 1024 * 512
  channels : ∀ x < 1024, ∀ y < 512,
    body[3 * (y * 1024 + x)]? = some (Color.ofPixel (v.get x y)).r ∧
      body[3 * (y * 1024 + x) + 1]? = some (Color.ofPixel (v.get x y)).g ∧
      body[3 * (y * 1024 + x) + 2]? = some (Color.ofPixel (v.get x y)).b

/-- The channels of a colour. -/
def colorBytes (c : Color) : Vector UInt8 3 :=
  #v[c.r, c.g, c.b]

/-- A pixel is put together from its bytes. -/
theorem pixel_of_bytes (pixel : UInt16) :
    (pixel >>> 8).toUInt8.toUInt16 <<< 8 ||| pixel.toUInt8.toUInt16 = pixel := by
  have hlt := pixel.toNat_lt
  have hlow : pixel.toUInt8.toUInt16.toNat = pixel.toNat % 256 := rfl
  have hhigh : ((pixel >>> 8).toUInt8.toUInt16 <<< 8).toNat = (pixel.toNat / 256) <<< 8 := by
    simp only [UInt16.toNat_shiftLeft, UInt16.toNat_shiftRight, UInt8.toNat_toUInt16,
      UInt16.toNat_toUInt8, UInt16.reduceToNat, Nat.reduceMod, Nat.reducePow, Nat.shiftLeft_eq,
      Nat.shiftRight_eq_div_pow]
    omega
  apply UInt16.toNat_inj.mp
  rw [UInt16.toNat_or, hhigh, hlow, ← Nat.shiftLeft_add_eq_or_of_lt (Nat.mod_lt _ (by decide)),
    Nat.shiftLeft_eq]
  omega

/-- The channels of the picture are those of the colour. -/
theorem expand_eq_channel (pixel lo : UInt16) :
    expand (pixel >>> lo) = Color.channel pixel lo :=
  (UInt16.toUInt8_shiftLeft (pixel >>> lo &&& 0x1F) 3 (by decide)).symm

/-- The converter reads from the two bytes of a pixel the channels of its colour. -/
theorem channels_eq (pixel : UInt16) :
    channels pixel.toUInt8 (pixel >>> 8).toUInt8 = (colorBytes (Color.ofPixel pixel)).toList := by
  have hzero : pixel >>> 0 = pixel := UInt16.shiftRight_zero
  have hblue : expand pixel = Color.channel pixel 0 := by rw [← expand_eq_channel, hzero]
  unfold channels
  dsimp only
  rw [pixel_of_bytes, expand_eq_channel, expand_eq_channel, hblue]
  rfl

/-- The bytes behind the header of the picture of a store. -/
def bodyOf (v : Vram) : ByteArray :=
  ⟨(v.pixels.flatMap fun pixel => colorBytes (Color.ofPixel pixel)).toArray⟩

/-- What the converter writes behind the header shows the store. -/
theorem shows_bodyOf (v : Vram) : Shows v (bodyOf v) where
  size := Vector.size_toArray _
  channels := by
    intro x hx y hy
    have hplace : y * 1024 + x < Vram.size := by rw [Vram.size]; omega
    have hpixel : v.get x y = v.pixels[y * 1024 + x] := by
      have hindex : Vram.index x y = y * 1024 + x := by
        rw [Vram.index, Vram.width, Vram.height, Nat.mod_eq_of_lt hx, Nat.mod_eq_of_lt hy]
      simp only [Vram.get, hindex]
    have hbyte {r : Nat} (hr : r < 3) : (bodyOf v)[3 * (y * 1024 + x) + r]? =
        some (colorBytes (Color.ofPixel (v.get x y)))[r] := by
      have hin : 3 * (y * 1024 + x) + r < (bodyOf v).size := by
        rw [bodyOf, ByteArray.size, Vector.size_toArray]
        omega
      have hdiv : (3 * (y * 1024 + x) + r) / 3 = y * 1024 + x := by omega
      have hmod : (3 * (y * 1024 + x) + r) % 3 = r := by omega
      rw [getElem?_pos (bodyOf v) _ hin, ByteArray.getElem_eq_getElem_data]
      simp only [bodyOf, Vector.getElem_toArray, Vector.getElem_flatMap, hdiv, hmod, hpixel]
    exact ⟨hbyte (r := 0) (by decide), hbyte (r := 1) (by decide), hbyte (r := 2) (by decide)⟩

/-- The channels of the pixel of a number in a dump. -/
def channelsAt {dump : ByteArray} (h : dump.size = dumpSize) (i : Fin Vram.size) : List UInt8 :=
  have : 2 * i.val + 1 < dump.size := by rw [h, dumpSize]; omega
  channels dump[2 * i.val] dump[2 * i.val + 1]

/-- At each place of a dump it reads the channels of the pixel there. -/
theorem channelsAt_toBytes (v : Vram) (i : Fin Vram.size) :
    channelsAt v.size_toBytes i = (colorBytes (Color.ofPixel v.pixels[i.val])).toList := by
  have hhigh : 2 * i.val + 1 < v.toBytes.size := by rw [v.size_toBytes, dumpSize]; omega
  obtain ⟨hfirst, hsecond⟩ := v.getElem_toBytes i.isLt (by omega) hhigh
  rw [channelsAt, hfirst, hsecond, channels_eq]

/-- Behind the header a picture has the channels of each pixel of the dump. -/
theorem data_ofDump? {dump : ByteArray} (h : dump.size = dumpSize) :
    ∃ picture, ofDump? dump = some picture ∧
      picture.data.toList =
        header.data.toList ++ (List.finRange Vram.size).flatMap fun i => channelsAt h i := by
  have hpicture : ofDump? dump = some (Vram.size.fold (fun i hi picture =>
      (channelsAt h ⟨i, hi⟩).foldl ByteArray.push picture) header) := by
    unfold channelsAt
    exact dif_pos h
  exact ⟨_, hpicture, data_fold_push (fun i hi => channelsAt h ⟨i, hi⟩) header⟩

/-- **The picture of a dump** shows the pixel store that was dumped. -/
theorem ofDump?_toBytes (v : Vram) : ofDump? v.toBytes = some (header ++ bodyOf v) := by
  obtain ⟨picture, hpicture, hdata⟩ := data_ofDump? v.size_toBytes
  have hpixels {n : Nat} (pixels : Vector UInt16 n) :
      pixels.toList = (List.finRange n).map fun i => pixels[i.val] := by
    apply List.ext_getElem <;> simp
  rw [hpicture]
  refine congrArg some (ByteArray.ext (Array.toList_inj.mp ?_))
  rw [hdata, ByteArray.data_append, Array.toList_append, bodyOf, ← Vector.flatMap_toArray,
    Array.toList_flatMap, Vector.toList_toArray, hpixels, List.flatMap_map]
  simp only [channelsAt_toBytes v, Vector.toList_toArray]

end Picture
end PlayStation
