import KoizOs.Fat.Fat16
import KoizOs.Lib.Field

/-!
# Native names

A raw name is cut at its first '.'; each part fills a field, of 8 and of 3 bytes.  The loop
has a column `j` for both of them.  From column `j` on it fills a field with the characters
of its part (`filled`).

    native name = field 8 (part before the '.') ++ field 3 (part behind it)
-/

namespace KoizOs

open Function Lib

/-- `ramdisk_fat16_filename_to_native` with its destination.  `stack₁` and `stack₂` are what
the two local arrays hold before `memset`. -/
def ramdiskFat16FilenameToNativeAt (stack₁ stack₂ nativeFileName : Buffer)
    (rawFileName : CString) : Buffer :=
  let st := filenameToNativeLoop rawFileName.chars
    { procFileName := true, j := 0, fileNameBuffer := memset stack₁ 0x20 8,
      fileExtBuffer := memset stack₂ 0x20 3 }
  let nativeFileName := memcpy nativeFileName st.fileNameBuffer 8
  nativeFileName.setFrom 8 (memcpy (nativeFileName.add 8) st.fileExtBuffer 3)

/-- A name that fits the two fields: parts without spaces, and without a second '.'. -/
structure ProperName (rawFileName : CString) : Prop where
  base_pos : 1 ≤ (before 0x2E rawFileName.chars).length
  base_le : (before 0x2E rawFileName.chars).length ≤ 8
  base_space : 0x20 ∉ before 0x2E rawFileName.chars
  ext_pos : 1 ≤ (after 0x2E rawFileName.chars).length
  ext_le : (after 0x2E rawFileName.chars).length ≤ 3
  ext_space : 0x20 ∉ after 0x2E rawFileName.chars
  ext_dot : 0x2E ∉ after 0x2E rawFileName.chars

variable {buf : Buffer} {c : UInt8} {cs : List UInt8} {i j n : Nat} {st : NativeName}

/-! ## The loop -/

/-- `buf` with `cs` written from column `j` on. -/
def filled (buf : Buffer) (j : Nat) (cs : List UInt8) (i : Nat) : UInt8 :=
  if i < j then buf i else cs.getD (i - j) (buf i)

theorem filled_zero (buf : Buffer) (cs : List UInt8) (i : Nat) :
    filled buf 0 cs i = cs.getD i (buf i) :=
  if_neg (Nat.not_lt_zero i)

theorem filled_nil (buf : Buffer) (j i : Nat) : filled buf j [] i = buf i :=
  ite_self _

theorem filled_of_lt (h : i < j) : filled buf j cs i = buf i := if_pos h

/-- A character at the column, the others behind it. -/
theorem filled_update (buf : Buffer) (j : Nat) (c : UInt8) (cs : List UInt8) (i : Nat) :
    filled (update buf j c) (j + 1) cs i = filled buf j (c :: cs) i := by
  unfold filled
  by_cases hlt : i < j
  · rw [if_pos (by omega), if_pos hlt, update_of_ne (by omega)]
  · rw [if_neg hlt]
    by_cases heq : i = j
    · subst heq
      rw [if_pos (Nat.lt_succ_self i), update_self, Nat.sub_self]
      rfl
    · rw [if_neg (by omega), update_of_ne heq, show i - j = i - (j + 1) + 1 by omega]
      rfl

/-- Behind the '.' the rest of the name goes to the extension, as far as there is room. -/
theorem filenameToNativeLoop_ext (hmode : st.procFileName = false) :
    (filenameToNativeLoop cs st).fileNameBuffer = st.fileNameBuffer ∧
      ∀ i, i < 3 → (filenameToNativeLoop cs st).fileExtBuffer i =
        filled st.fileExtBuffer st.j cs i := by
  induction cs generalizing st with
  | nil => exact ⟨rfl, fun i _ => (filled_nil ..).symm⟩
  | cons c cs ih =>
    rw [filenameToNativeLoop, if_neg (hmode ▸ Bool.false_ne_true)]
    by_cases hj : st.j < 3
    · rw [if_pos hj]
      obtain ⟨hname, hext⟩ := @ih
        { st with fileExtBuffer := update st.fileExtBuffer st.j c, j := st.j + 1 } hmode
      refine ⟨hname, ?_⟩
      intro i hi
      rw [hext i hi, filled_update]
    · rw [if_neg hj]
      obtain ⟨hname, hext⟩ := ih hmode
      refine ⟨hname, ?_⟩
      intro i hi
      rw [hext i hi, filled_of_lt (by omega), filled_of_lt (by omega)]

/-- Up to the '.' the characters go to the base, as far as there is room. -/
theorem filenameToNativeLoop_name (hmode : st.procFileName = true) :
    (∀ i, i < 8 → (filenameToNativeLoop cs st).fileNameBuffer i =
      filled st.fileNameBuffer st.j (before 0x2E cs) i) ∧
    ∀ i, i < 3 → (filenameToNativeLoop cs st).fileExtBuffer i =
      (after 0x2E cs).getD i (st.fileExtBuffer i) := by
  induction cs generalizing st with
  | nil => exact ⟨fun i _ => (filled_nil ..).symm, fun i _ => rfl⟩
  | cons c cs ih =>
    rw [filenameToNativeLoop, if_pos hmode]
    by_cases hc : c = 0x2E
    · subst hc
      rw [if_pos rfl, before_cons_self, after_cons_self]
      obtain ⟨hname, hext⟩ := @filenameToNativeLoop_ext cs
        { st with procFileName := false, j := 0 } rfl
      refine ⟨?_, ?_⟩
      · intro i _
        rw [hname, filled_nil]
      · intro i hi
        rw [hext i hi, filled_zero]
    · rw [if_neg hc, before_cons_of_ne hc, after_cons_of_ne hc]
      by_cases hj : st.j < 8
      · rw [if_pos hj]
        obtain ⟨hname, hext⟩ := @ih
          { st with fileNameBuffer := update st.fileNameBuffer st.j c, j := st.j + 1 } hmode
        refine ⟨?_, hext⟩
        intro i hi
        rw [hname i hi, filled_update]
      · rw [if_neg hj]
        obtain ⟨hname, hext⟩ := ih hmode
        refine ⟨?_, hext⟩
        intro i hi
        rw [hname i hi, filled_of_lt (by omega), filled_of_lt (by omega)]

/-- What the loop makes of two blank buffers. -/
theorem filenameToNativeLoop_blank {name ext : Buffer} (hname : ∀ i, i < 8 → name i = 0x20)
    (hext : ∀ i, i < 3 → ext i = 0x20) (cs : List UInt8) :
    (∀ i, i < 8 → (filenameToNativeLoop cs ⟨true, 0, name, ext⟩).fileNameBuffer i =
      (before 0x2E cs).getD i 0x20) ∧
    ∀ i, i < 3 → (filenameToNativeLoop cs ⟨true, 0, name, ext⟩).fileExtBuffer i =
      (after 0x2E cs).getD i 0x20 := by
  obtain ⟨hbase, hrest⟩ := @filenameToNativeLoop_name cs ⟨true, 0, name, ext⟩ rfl
  constructor
  · intro i hi
    rw [hbase i hi, filled_zero, ← hname i hi]
  · intro i hi
    rw [hrest i hi, ← hext i hi]

/-! ## The eleven bytes -/

/-- Byte `i` of a native name. -/
def nativeByte (cs : List UInt8) (i : Nat) : UInt8 :=
  if i < 8 then (before 0x2E cs).getD i 0x20 else (after 0x2E cs).getD (i - 8) 0x20

theorem filenameToNativeAt_apply (stack₁ stack₂ dst : Buffer) (raw : CString) (i : Nat) :
    ramdiskFat16FilenameToNativeAt stack₁ stack₂ dst raw i =
      if i < 11 then nativeByte raw.chars i else dst i := by
  obtain ⟨hname, hext⟩ := filenameToNativeLoop_blank
    (fun i hi => @memset_of_lt stack₁ 0x20 8 i hi) (fun i hi => @memset_of_lt stack₂ 0x20 3 i hi)
    raw.chars
  unfold ramdiskFat16FilenameToNativeAt Buffer.setFrom Buffer.add nativeByte
  rw [memcpy_apply, memcpy_apply]
  by_cases hi : i < 8
  · rw [if_pos hi, if_pos hi, if_pos (by omega), if_pos hi, hname i hi]
  · rw [if_neg hi]
    by_cases hj : i - 8 < 3
    · rw [if_pos hj, if_pos (by omega), if_neg hi, hext (i - 8) hj]
    · rw [if_neg hj, if_neg (by omega), memcpy_apply, if_neg (by omega)]
      congr 1
      omega

theorem filenameToNative_getElem (raw : CString) (i : Nat) (h : i < 11) :
    (ramdiskFat16FilenameToNative raw)[i] = nativeByte raw.chars i := by
  obtain ⟨hname, hext⟩ := @filenameToNativeLoop_blank (fun _ => 0x20) (fun _ => 0x20)
    (fun _ _ => rfl) (fun _ _ => rfl) raw.chars
  unfold ramdiskFat16FilenameToNative nativeByte
  rw [Vector.getElem_ofFn]
  by_cases hi : i < 8
  · rw [if_pos hi, if_pos (show (⟨i, h⟩ : Fin 11) < 8 from hi)]
    exact hname i hi
  · rw [if_neg hi, if_neg (show ¬ (⟨i, h⟩ : Fin 11) < 8 from hi)]
    exact hext (i - 8) (by omega)

/-- The name that the driver works with is what lies at the destination. -/
theorem filenameToNativeAt_eq (stack₁ stack₂ dst : Buffer) (raw : CString) :
    ramdiskFat16FilenameToNativeAt stack₁ stack₂ dst raw =
      .ofArray (ramdiskFat16FilenameToNative raw) dst := by
  funext i
  rw [filenameToNativeAt_apply, Buffer.ofArray]
  by_cases hi : i < 11
  · rw [if_pos hi, dif_pos hi, filenameToNative_getElem raw i hi]
  · rw [if_neg hi, dif_neg hi]

theorem nativeByte_zero (raw : CString) : nativeByte raw.chars 0 ≠ 0 := by
  unfold nativeByte
  rw [if_pos (by decide)]
  cases hbase : before 0x2E raw.chars with
  | nil => decide
  | cons c cs =>
    have hmem : c ∈ raw.chars := before_subset (hbase ▸ List.mem_cons_self)
    rintro (rfl : c = 0)
    exact raw.no_nul hmem

/-- The fields of the two parts, one behind the other. -/
theorem nativeByte_fields (cs : List UInt8) : (List.range 11).map (nativeByte cs) =
    field 8 0x20 (before 0x2E cs) ++ field 3 0x20 (after 0x2E cs) := by
  have hbase : (List.range 8).map (nativeByte cs) = field 8 0x20 (before 0x2E cs) :=
    map_range_eq_field fun i hi => if_pos hi
  have hext : (List.range 3).map (fun i => nativeByte cs (8 + i)) =
      field 3 0x20 (after 0x2E cs) := by
    apply map_range_eq_field
    intro i _
    rw [nativeByte, if_neg (by omega), Nat.add_sub_cancel_left]
  rw [show List.range 11 = List.range (8 + 3) from rfl, List.range_add, List.map_append,
    List.map_map, hbase, ← hext]
  rfl

/-! ## Proper names -/

/-- A proper name is its two parts with a '.' between. -/
theorem ProperName.chars_eq {raw : CString} (h : ProperName raw) :
    raw.chars = before 0x2E raw.chars ++ 0x2E :: after 0x2E raw.chars := by
  have hext : after 0x2E raw.chars ≠ [] := List.length_pos_iff.mp h.ext_pos
  exact (before_append_after (mem_of_after_ne_nil hext)).symm

theorem ProperName.eq_of_native {raw raw' : CString} (h : ProperName raw) (h' : ProperName raw')
    (hsame : ∀ i, i < 11 → nativeByte raw.chars i = nativeByte raw'.chars i) : raw = raw' := by
  have hfields := nativeByte_fields raw.chars
  have hmap : (List.range 11).map (nativeByte raw.chars) =
      (List.range 11).map (nativeByte raw'.chars) :=
    List.map_congr_left fun i hi => hsame i (List.mem_range.mp hi)
  rw [hmap, nativeByte_fields] at hfields
  obtain ⟨hbase, hext⟩ := List.append_inj hfields (length_field.trans length_field.symm)
  have hbase := field_inj h'.base_space h.base_space h'.base_le h.base_le hbase
  have hext := field_inj h'.ext_space h.ext_space h'.ext_le h.ext_le hext
  apply CString.eq_of_chars
  rw [h.chars_eq, h'.chars_eq, hbase, hext]

/-- **8.3 names.** Eleven bytes are written: the part of the name before the first '.' in eight
of them, all that is behind it in three, cut or filled with spaces.  The first is never 0, and
proper names have different bytes. -/
theorem filename_to_native (stack₁ stack₂ dst : Buffer) (raw : CString) :
    let native := ramdiskFat16FilenameToNativeAt stack₁ stack₂ dst raw
    (∀ i, 11 ≤ i → native i = dst i) ∧
      (List.range 11).map native =
        field 8 0x20 (before 0x2E raw.chars) ++ field 3 0x20 (after 0x2E raw.chars) ∧
      native 0 ≠ 0 ∧
      ∀ (stack₁' stack₂' dst' : Buffer) (raw' : CString), ProperName raw → ProperName raw' →
        (∀ i, i < 11 → native i = ramdiskFat16FilenameToNativeAt stack₁' stack₂' dst' raw' i) →
          raw = raw' := by
  intro native
  have hbyte : ∀ i, i < 11 → native i = nativeByte raw.chars i := fun i hi =>
    (filenameToNativeAt_apply stack₁ stack₂ dst raw i).trans (if_pos hi)
  refine ⟨?_, ?_, ?_, ?_⟩
  · intro i hi
    exact (filenameToNativeAt_apply stack₁ stack₂ dst raw i).trans (if_neg (Nat.not_lt.mpr hi))
  · rw [← nativeByte_fields]
    exact List.map_congr_left fun i hi => hbyte i (List.mem_range.mp hi)
  · rw [hbyte 0 (by decide)]
    exact nativeByte_zero raw
  · intro stack₁' stack₂' dst' raw' h h' hsame
    apply h.eq_of_native h'
    intro i hi
    rw [← hbyte i hi, hsame i hi, filenameToNativeAt_apply, if_pos hi]

/-- `a.b` and `a.c`. -/
theorem filename_to_native_two :
    (List.range 11).map (ramdiskFat16FilenameToNativeAt zeroSector zeroSector zeroSector
      ⟨[0x61, 0x2E, 0x62], by decide⟩) =
        [0x61, 0x20, 0x20, 0x20, 0x20, 0x20, 0x20, 0x20, 0x62, 0x20, 0x20] ∧
    ¬ ∀ i, i < 11 → ramdiskFat16FilenameToNativeAt zeroSector zeroSector zeroSector
      ⟨[0x61, 0x2E, 0x62], by decide⟩ i = ramdiskFat16FilenameToNativeAt zeroSector zeroSector
      zeroSector ⟨[0x61, 0x2E, 0x63], by decide⟩ i := by
  obtain ⟨-, hbytes, -, hinj⟩ := filename_to_native zeroSector zeroSector zeroSector
    ⟨[0x61, 0x2E, 0x62], by decide⟩
  refine ⟨hbytes, ?_⟩
  intro hsame
  have hb : ProperName ⟨[0x61, 0x2E, 0x62], by decide⟩ :=
    ⟨by decide, by decide, by decide, by decide, by decide, by decide, by decide⟩
  have hc : ProperName ⟨[0x61, 0x2E, 0x63], by decide⟩ :=
    ⟨by decide, by decide, by decide, by decide, by decide, by decide, by decide⟩
  exact absurd (hinj _ _ _ _ hb hc hsame) (by decide)

end KoizOs
