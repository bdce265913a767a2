import BlockCanvas.Library
import BlockCanvas.Proofs.Utf8
import Mathlib.Algebra.Order.Ring.Nat

/-!
What is relied on of a package for archives (`Zip.Codec.Keeps`): what was stored under a name is found under it.
The zip files written here keep every archive whose lengths fit their fields (`Zip.keeps_standard`).
-/
namespace BlockCanvas

/-! ### Numbers in bytes -/

namespace Bytes
variable {n k : ℕ}

theorem length_lowFirst (n k : ℕ) : (lowFirst n k).length = k := by
  induction k generalizing n with
  | zero => rfl
  | succ k ih => rw [lowFirst, List.length_cons, ih]

theorem numberOf_lowFirst (h : n < 256 ^ k) : numberOf (lowFirst n k) = n := by
  induction k generalizing n with
  | zero =>
    rw [pow_zero, Nat.lt_one_iff] at h
    rw [h]
    rfl
  | succ k ih =>
    have hrest : n / 256 < 256 ^ k := Nat.div_lt_of_lt_mul (by rwa [← pow_succ'])
    have hbyte : (UInt8.ofNat (n % 256)).toNat = n % 256 :=
      UInt8.toNat_ofNat_of_lt (Nat.mod_lt _ (by decide))
    rw [lowFirst, numberOf, ih hrest, hbyte]
    exact Nat.mod_add_div n 256

theorem fieldAt_eq {bytes : Bytes} {start : ℕ} (hslice : slice bytes start k = lowFirst n k) (h : n < 256 ^ k) :
    fieldAt bytes start k = n := by
  rw [fieldAt, hslice, numberOf_lowFirst h]

theorem slice_append {before bytes : Bytes} (after : Bytes) {start length : ℕ} (hstart : before.length = start)
    (hlength : bytes.length = length) : slice (before ++ (bytes ++ after)) start length = bytes := by
  rw [slice, ← hstart, ← hlength, List.drop_left, List.take_left]

end Bytes

namespace Zip
open Bytes

/-! ### Checksums -/

theorem checkBit_lt {crc : ℕ} (h : crc < 2 ^ 32) : checkBit crc < 2 ^ 32 := by
  have hhalf : crc / 2 < 2 ^ 32 := (Nat.div_le_self crc 2).trans_lt h
  rw [checkBit]
  split
  · exact Nat.xor_lt_two_pow hhalf (by decide)
  · exact hhalf

theorem checkByte_lt {crc : ℕ} (h : crc < 2 ^ 32) (b : UInt8) : checkByte crc b < 2 ^ 32 := by
  have hfirst : Nat.xor crc b.toNat < 2 ^ 32 :=
    Nat.xor_lt_two_pow h (b.toNat_lt.trans (by decide))
  refine List.foldlRecOn (motive := (· < 2 ^ 32)) _ _ hfirst fun crc hcrc _ _ => checkBit_lt hcrc

theorem checksum_lt (bytes : Bytes) : checksum bytes < 2 ^ 32 := by
  have hfold : bytes.foldl checkByte 0xFFFFFFFF < 2 ^ 32 :=
    List.foldlRecOn (motive := (· < 2 ^ 32)) _ _ (by decide) fun crc hcrc b _ => checkByte_lt hcrc b
  exact Nat.xor_lt_two_pow hfold (by decide)

/-! ### Entries -/

variable {name data : Bytes} {archive : Archive} {file rest : Bytes} {offset : ℕ}

theorem length_commonFields (name data : Bytes) : (commonFields name data).length = 26 := by
  simp only [commonFields, List.length_append, length_lowFirst]

theorem length_localEntry (name data : Bytes) :
    (localEntry name data).length = 30 + name.length + data.length := by
  simp only [localEntry, localSign, List.length_append, length_commonFields, List.length_cons, List.length_nil]

theorem length_directoryEntry (name data : Bytes) (offset : ℕ) :
    (directoryEntry name data offset).length = 46 + name.length := by
  simp only [directoryEntry, directorySign, List.length_append, length_commonFields, length_lowFirst,
    List.length_cons, List.length_nil]

theorem localEntry_append (name data rest : Bytes) :
    localEntry name data ++ rest =
      localSign ++ (lowFirst 20 2 ++ (lowFirst 0x800 2 ++ (lowFirst 0 2 ++ (lowFirst 0 2 ++ (lowFirst 0x21 2 ++
        (lowFirst (checksum data) 4 ++ (lowFirst data.length 4 ++ (lowFirst data.length 4 ++
          (lowFirst name.length 2 ++ (lowFirst 0 2 ++ (name ++ (data ++ rest)))))))))))) := by
  simp only [localEntry, commonFields, List.append_assoc]

theorem directoryEntry_append (name data rest : Bytes) (offset : ℕ) :
    directoryEntry name data offset ++ rest =
      directorySign ++ (lowFirst 20 2 ++ (lowFirst 20 2 ++ (lowFirst 0x800 2 ++ (lowFirst 0 2 ++ (lowFirst 0 2 ++
        (lowFirst 0x21 2 ++ (lowFirst (checksum data) 4 ++ (lowFirst data.length 4 ++ (lowFirst data.length 4 ++
          (lowFirst name.length 2 ++ (lowFirst 0 2 ++ (lowFirst 0 2 ++ (lowFirst 0 2 ++ (lowFirst 0 2 ++
            (lowFirst 0 4 ++ (lowFirst offset 4 ++ (name ++ rest))))))))))))))))) := by
  simp only [directoryEntry, commonFields, List.append_assoc]

theorem dataAt?_localEntry (hname : name.length < 2 ^ 16)
    (hfile : file.drop offset = localEntry name data ++ rest) : dataAt? file offset data.length = some data := by
  have hdata : slice (localEntry name data ++ rest) (30 + name.length) data.length = data := by
    rw [localEntry, List.append_assoc]
    refine slice_append rest ?_ rfl
    simp only [localSign, List.length_append, length_commonFields, List.length_cons, List.length_nil]
  have hsign : slice (localEntry name data ++ rest) 0 4 = localSign := rfl
  rw [localEntry_append] at hfile hdata hsign
  simp only [dataAt?, hfile, hsign]
  generalize hheader : localSign ++ _ = header at hdata
  have hlength : fieldAt header 26 2 = name.length := by
    subst hheader
    exact fieldAt_eq rfl hname
  have hextra : fieldAt header 28 2 = 0 := by
    subst hheader
    exact fieldAt_eq rfl (by decide)
  simp [hlength, hextra, hdata]

theorem readDirectory_step {n : ℕ} {name : String} (hname : (Text.utf8 name).length < 2 ^ 16)
    (hdata : data.length < 2 ^ 32) (hoffset : offset < 2 ^ 32)
    (hfile : dataAt? file offset data.length = some data) :
    readDirectory file (n + 1) (directoryEntry (Text.utf8 name) data offset ++ rest) =
      (readDirectory file n rest).map ((name, data) :: ·) := by
  have hpast : (directoryEntry (Text.utf8 name) data offset ++ rest).drop (46 + (Text.utf8 name).length) = rest :=
    List.drop_left' (length_directoryEntry _ _ _)
  have hread : slice (directoryEntry (Text.utf8 name) data offset ++ rest) 46 (Text.utf8 name).length =
      Text.utf8 name := by
    rw [directoryEntry, List.append_assoc]
    refine slice_append rest ?_ rfl
    simp only [directorySign, List.length_append, length_commonFields, length_lowFirst, List.length_cons,
      List.length_nil]
  rw [directoryEntry_append] at hpast hread ⊢
  generalize hrecord : directorySign ++ _ = record at hpast hread ⊢
  have hfields : slice record 0 4 = directorySign ∧ fieldAt record 10 2 = 0 ∧
      fieldAt record 16 4 = checksum data ∧ fieldAt record 20 4 = data.length ∧
      fieldAt record 28 2 = (Text.utf8 name).length ∧ fieldAt record 30 2 = 0 ∧ fieldAt record 32 2 = 0 ∧
      fieldAt record 42 4 = offset := by
    subst hrecord
    exact ⟨rfl, fieldAt_eq rfl (by decide), fieldAt_eq rfl (checksum_lt data), fieldAt_eq rfl hdata,
      fieldAt_eq rfl hname, fieldAt_eq rfl (by decide), fieldAt_eq rfl (by decide), fieldAt_eq rfl hoffset⟩
  obtain ⟨hsign, hmethod, hcheck, hsize, hlength, hextra, hcomment, hstart⟩ := hfields
  simp [readDirectory, hsign, hmethod, hcheck, hsize, hlength, hextra, hcomment, hstart, hread, hfile,
    Text.strict?_utf8, hpast, Option.map_eq_bind]

/-! ### Archives -/

structure Fits (archive : Archive) : Prop where
  count : archive.length < 2 ^ 16
  names : ∀ e ∈ archive, (Text.utf8 e.1).length < 2 ^ 16
  size : (sections 0 archive).1.length < 2 ^ 32

theorem readDirectory_sections {before after : Bytes} (hnames : ∀ e ∈ archive, (Text.utf8 e.1).length < 2 ^ 16)
    (hsize : before.length + (sections before.length archive).1.length < 2 ^ 32)
    (hfile : file = before ++ ((sections before.length archive).1 ++ after)) :
    readDirectory file archive.length ((sections before.length archive).2 ++ rest) = some archive := by
  induction archive generalizing before with
  | nil => rfl
  | cons e archive ih =>
    obtain ⟨name, data⟩ := e
    obtain ⟨hname, hrest⟩ := List.forall_mem_cons.1 hnames
    dsimp only at hname
    have hentry := length_localEntry (Text.utf8 name) data
    simp only [sections, List.length_append, List.append_assoc] at hsize hfile ⊢
    generalize hbytes : localEntry (Text.utf8 name) data = bytes at hsize hfile hentry ⊢
    have hstands : file.drop before.length = localEntry (Text.utf8 name) data ++
        ((sections (before.length + bytes.length) archive).1 ++ after) := by
      rw [hfile, List.drop_left, hbytes]
    have hdata : dataAt? file before.length data.length = some data := dataAt?_localEntry hname hstands
    have hnext : (before ++ bytes).length = before.length + bytes.length := List.length_append
    rw [List.length_cons, readDirectory_step hname (by omega) (by omega) hdata, ← hnext,
      ih hrest (hnext ▸ by omega) (by rw [hfile, hnext, List.append_assoc])]
    rfl

theorem endRecord?_short {found : Option Bytes} {bytes : Bytes} (h : bytes.length < 22) :
    endRecord? found bytes = found := by
  induction bytes with
  | nil => rfl
  | cons b bytes ih =>
    have hlength : ((b :: bytes).length == 22 + fieldAt (b :: bytes) 20 2) = false := by
      rw [beq_eq_false_iff_ne]
      omega
    rw [endRecord?]
    simp only [hlength, Bool.and_false]
    exact ih ((Nat.lt_succ_self _).trans h)

theorem endRecord?_append {found : Option Bytes} {before record : Bytes} (hlength : record.length = 22)
    (hsign : slice record 0 4 = endSign) (hcomment : fieldAt record 20 2 = 0) :
    endRecord? found (before ++ record) = some record := by
  induction before generalizing found with
  | nil =>
    obtain ⟨b, bytes, rfl⟩ := List.exists_cons_of_length_eq_add_one hlength
    rw [List.nil_append, endRecord?, hsign, hcomment, hlength]
    exact endRecord?_short (Nat.lt_of_succ_lt_succ (hlength.trans_lt (by decide)))
  | cons b before ih =>
    rw [List.cons_append, endRecord?]
    split
    · exact ih
    · exact ih

theorem decode?_encode (h : Fits archive) : decode? (encode archive) = some archive := by
  let entries := (sections 0 archive).1
  let directory := (sections 0 archive).2
  generalize hrecord : endSign ++ (lowFirst 0 2 ++ (lowFirst 0 2 ++ (lowFirst archive.length 2 ++
    (lowFirst archive.length 2 ++ (lowFirst directory.length 4 ++ (lowFirst entries.length 4 ++
      lowFirst 0 2)))))) = record
  have hencode : encode archive = entries ++ (directory ++ record) := by
    simp only [← hrecord, encode, entries, directory, List.append_assoc]
  have hlast : endRecord? none (encode archive) = some record := by
    rw [hencode, ← List.append_assoc]
    subst hrecord
    exact endRecord?_append rfl rfl (fieldAt_eq (n := 0) rfl (by decide))
  have hcount : fieldAt record 10 2 = archive.length := by
    subst hrecord
    exact fieldAt_eq rfl h.count
  have hstart : fieldAt record 16 4 = entries.length := by
    subst hrecord
    exact fieldAt_eq rfl h.size
  rw [decode?, hlast]
  simp only [bind, Option.bind, hcount, hstart]
  rw [hencode, List.drop_left]
  exact @readDirectory_sections _ _ record [] (directory ++ record) h.names (by simpa using h.size) rfl

/-! ### Packages -/

/-- The promise of a package for one archive: what was stored under a name is found under it. -/
def Codec.Keeps (zip : Codec) (archive : Archive) : Prop :=
  ∃ read, zip.decode? (zip.encode archive) = some read ∧ ∀ e ∈ archive, entry? read e.1 = some e.2

theorem keeps_standard (h : Fits archive) (hfound : ∀ e ∈ archive, entry? archive e.1 = some e.2) :
    Library.standard.zip.Keeps archive :=
  ⟨archive, decode?_encode h, hfound⟩

end Zip
end BlockCanvas
