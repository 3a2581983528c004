import SeaChart.Chart.Columns
import SeaChart.Proofs.Utf8Reading

namespace SeaChart

open Text (Bytes encodeUtf8 IsSolid)

namespace Columns

structure Column where
  name : String
  others : Bytes
  fits : (encodeUtf8 name).length ≤ nameLength
  noNul : '\x00' ∉ name.toList
  solid : IsSolid name.toList
  length_others : others.length = descriptorLength - nameLength

namespace Column

def descriptor (c : Column) : Bytes :=
  encodeUtf8 c.name ++ List.replicate (nameLength - (encodeUtf8 c.name).length) 0 ++ c.others

theorem length_descriptor (c : Column) : c.descriptor.length = descriptorLength := by
  have hfits := c.fits
  have hothers := c.length_others
  simp only [descriptor, List.length_append, List.length_replicate, nameLength,
    descriptorLength] at *
  omega

theorem zero_notMem (c : Column) : ∀ b ∈ encodeUtf8 c.name, (b != 0) = true := by
  intro b hb
  obtain ⟨d, hd, hmem⟩ := List.mem_flatMap.mp hb
  rw [bne_iff_ne]
  rintro rfl
  exact c.noNul (Text.eq_ofNat_of_mem_encodeChar hmem (by decide) ▸ hd)

theorem nameOf_descriptor (c : Column) : nameOf c.descriptor = c.name := by
  have hname : c.descriptor.take nameLength =
      encodeUtf8 c.name ++ List.replicate (nameLength - (encodeUtf8 c.name).length) 0 := by
    have hfits := c.fits
    apply List.take_left'
    rw [List.length_append, List.length_replicate]
    omega
  have hzeros (n : Nat) : (List.replicate n (0 : UInt8)).takeWhile (· != 0) = [] := by
    cases n <;> rfl
  have htrim : Text.trim c.name.toList = c.name.toList := by
    simpa using @IsSolid.trim_between [] _ [] c.solid rfl rfl
  rw [nameOf, hname, List.takeWhile_append_of_pos c.zero_notMem, hzeros, List.append_nil,
    Text.readUtf8Lossy_encodeUtf8, Text.trimmed, htrim, String.ofList_toList]

theorem head?_descriptor (c : Column) : c.descriptor.head? ≠ some terminator := by
  intro h
  rw [descriptor, encodeUtf8] at h
  cases hname : c.name.toList with
  | nil =>
    rw [hname] at h
    cases h
  | cons d ds =>
    obtain ⟨b, bs, hbytes⟩ := List.exists_cons_of_ne_nil (@String.utf8EncodeChar_ne_nil d)
    have hmem : b ∈ String.utf8EncodeChar d := hbytes ▸ List.mem_cons_self
    rw [hname, List.flatMap_cons, hbytes] at h
    rw [show b = terminator from Option.some.inj h] at hmem
    have hreturn := Text.eq_ofNat_of_mem_encodeChar hmem (by decide)
    have hsolid := c.solid.head d (by rw [hname]; rfl)
    rw [hreturn] at hsolid
    revert hsolid
    decide

theorem names_descriptor (c : Column) (rest : Bytes) :
    names (c.descriptor ++ rest) = c.name :: names rest := by
  have hlength := c.length_descriptor
  have hhead : (c.descriptor ++ rest).head? ≠ some terminator := by
    have hfirst := c.head?_descriptor
    cases hdescriptor : c.descriptor with
    | nil => simp [hdescriptor, descriptorLength] at hlength
    | cons b bs => simpa [hdescriptor] using hfirst
  have hwhole : ¬(c.descriptor ++ rest).length < descriptorLength := by
    rw [List.length_append]
    omega
  rw [names, if_neg (not_or.mpr ⟨hwhole, hhead⟩), List.take_left' hlength, List.drop_left' hlength,
    c.nameOf_descriptor]

end Column

structure Table where
  start : Bytes
  middle : Bytes
  columns : List Column
  trailing : Bytes
  length_start : start.length = 8
  length_middle : middle.length = 22
  length_columns : columns.length ≤ 2046

namespace Table

def headerLength (t : Table) : Nat :=
  32 + 32 * t.columns.length + 1

def bytes (t : Table) : Bytes :=
  t.start ++ UInt8.ofNat (t.headerLength % 256) :: UInt8.ofNat (t.headerLength / 256) ::
    (t.middle ++ t.columns.flatMap Column.descriptor ++ terminator :: t.trailing)

theorem length_descriptors (columns : List Column) :
    (columns.flatMap Column.descriptor).length = 32 * columns.length := by
  induction columns with
  | nil => rfl
  | cons c columns ih =>
    rw [List.flatMap_cons, List.length_append, c.length_descriptor, ih, List.length_cons,
      descriptorLength]
    omega

theorem storedLength_bytes (t : Table) : storedLength t.bytes = t.headerLength := by
  have hlarge : t.headerLength < 65536 := by
    have := t.length_columns
    rw [headerLength]
    omega
  have hbyte {n : Nat} (h : n < 256) : (UInt8.ofNat n).toNat = n := Text.toNat_byte h
  rw [storedLength, bytes, List.drop_left' t.length_start]
  simp only
  rw [hbyte (Nat.mod_lt _ (by decide)), hbyte (by omega)]
  omega

theorem names_descriptors (columns : List Column) :
    names (columns.flatMap Column.descriptor ++ [terminator]) = columns.map Column.name := by
  induction columns with
  | nil => simp [names]
  | cons c columns ih =>
    rw [List.flatMap_cons, List.append_assoc, c.names_descriptor, ih, List.map_cons]

theorem read_bytes (t : Table) : read t.bytes = some (t.columns.map Column.name) := by
  have hstart := t.length_start
  have hmiddle := t.length_middle
  have hdescriptors := length_descriptors t.columns
  have hparts : t.bytes = (t.start ++ UInt8.ofNat (t.headerLength % 256) ::
      UInt8.ofNat (t.headerLength / 256) :: t.middle) ++
        (t.columns.flatMap Column.descriptor ++ [terminator] ++ t.trailing) := by
    simp [bytes]
  have hlength : t.headerLength ≤ t.bytes.length := by
    simp only [hparts, List.length_append, List.length_cons, List.length_nil, headerLength]
    omega
  have hcut : (t.bytes.drop Columns.headerLength).take (t.headerLength - Columns.headerLength) =
      t.columns.flatMap Column.descriptor ++ [terminator] := by
    rw [hparts, List.drop_left' (by simp [hstart, hmiddle, Columns.headerLength])]
    apply List.take_left'
    simp only [List.length_append, List.length_singleton, hdescriptors, headerLength,
      Columns.headerLength]
    omega
  have hwhole : ¬(t.bytes.length < Columns.headerLength ∨ t.bytes.length < t.headerLength) := by
    rw [headerLength] at hlength ⊢
    rw [Columns.headerLength]
    omega
  rw [read, storedLength_bytes, if_neg hwhole, hcut, names_descriptors]

end Table

def StoresLength (bytes : Bytes) (n : Nat) : Prop :=
  ∃ low high, bytes[8]? = some low ∧ bytes[9]? = some high ∧ n = low.toNat + 256 * high.toNat

theorem StoresLength.storedLength_eq {bytes : Bytes} {n : Nat} (h : StoresLength bytes n) :
    storedLength bytes = n := by
  obtain ⟨low, high, hlow, hhigh, rfl⟩ := h
  have hdrop : bytes.drop 8 = low :: high :: bytes.drop 10 := by
    obtain ⟨hlt, rfl⟩ := List.getElem?_eq_some_iff.mp hlow
    obtain ⟨hlt', rfl⟩ := List.getElem?_eq_some_iff.mp hhigh
    rw [List.drop_eq_getElem_cons hlt, List.drop_eq_getElem_cons hlt']
  rw [storedLength, hdrop]

theorem exists_storesLength {bytes : Bytes} (h : headerLength ≤ bytes.length) :
    ∃ n, StoresLength bytes n := by
  rw [headerLength] at h
  exact ⟨_, bytes[8], bytes[9], List.getElem?_eq_getElem _, List.getElem?_eq_getElem _, rfl⟩

theorem read_eq_none_iff (bytes : Bytes) : read bytes = none ↔
    bytes.length < 32 ∨ ∃ n, StoresLength bytes n ∧ bytes.length < n := by
  rw [read, ite_eq_left_iff]
  simp only [reduceCtorEq, imp_false, not_not]
  by_cases hshort : bytes.length < headerLength
  · exact iff_of_true (.inl hshort) (.inl hshort)
  · obtain ⟨n, hn⟩ := exists_storesLength (Nat.le_of_not_lt hshort)
    apply or_congr_right
    constructor
    · exact fun h => ⟨n, hn, hn.storedLength_eq ▸ h⟩
    · rintro ⟨m, hm, h⟩
      rwa [hm.storedLength_eq]

theorem load_eq_ok_iff {s : Store} {p : Path} {bytes : Bytes} (h : s.read p = .ok bytes)
    (found : List String) : load s p = .ok found ↔ read bytes = some found := by
  cases hread : read bytes with
  | none => simp [load, h, hread, bind, Except.bind]
  | some names => simp [load, h, hread, bind, Except.bind]

/--
The columns of every table are read from a file that holds it. Reading a file fails just when the
file is shorter than 32 bytes or than the length that it stores, and otherwise the result is that of
the bytes before this length.
-/
theorem load_names :
    ∃ namesIn : Bytes → List String, ∀ (s : Store) (p : Path) (bytes : Bytes),
      s.read p = .ok bytes →
        (∀ t : Table, bytes = t.bytes → load s p = .ok (t.columns.map Column.name)) ∧
        ((∃ e, load s p = .error e) ↔
          bytes.length < 32 ∨ ∃ n, StoresLength bytes n ∧ bytes.length < n) ∧
        ∀ n found, StoresLength bytes n → load s p = .ok found →
          found = namesIn (bytes.take n) := by
  refine ⟨fun front => names (front.drop headerLength), fun s p bytes h => ⟨?_, ?_, ?_⟩⟩
  · rintro t rfl
    exact (load_eq_ok_iff h _).mpr t.read_bytes
  · rw [← read_eq_none_iff]
    constructor
    · rintro ⟨e, he⟩
      rw [Option.eq_none_iff_forall_ne_some]
      intro found hfound
      rw [(load_eq_ok_iff h found).mpr hfound] at he
      cases he
    · intro hnone
      cases hload : load s p with
      | error e => exact ⟨e, rfl⟩
      | ok found =>
        rw [(load_eq_ok_iff h found).mp hload] at hnone
        cases hnone
  · intro n found hn hfound
    have hread := (load_eq_ok_iff h found).mp hfound
    rw [read, hn.storedLength_eq, Option.ite_none_left_eq_some] at hread
    change found = names ((bytes.take n).drop headerLength)
    rw [List.drop_take]
    exact (Option.some.inj hread.2).symm

def unusualTable : Table where
  start := List.replicate 8 3
  middle := List.replicate 22 255
  columns :=
    [{ name := "", others := List.replicate 21 7, fits := by decide, noNul := by decide,
       solid := by decide, length_others := by decide },
     { name := "TIEFE (M²)", others := List.replicate 21 0, fits := by decide, noNul := by decide,
       solid := by decide, length_others := by decide }]
  trailing := [13, 0, 88]
  length_start := by decide
  length_middle := by decide
  length_columns := by decide

theorem load_names_unusualTable :
    ∃ s : Store, s.read ⟨"a.dbf"⟩ = .ok unusualTable.bytes ∧
      load s ⟨"a.dbf"⟩ = .ok ["", "TIEFE (M²)"] ∧ ¬∃ e, load s ⟨"a.dbf"⟩ = .error e := by
  let s : Store := ⟨.directory [("a.dbf", .file unusualTable.bytes)], []⟩
  have hread : s.read ⟨"a.dbf"⟩ = .ok unusualTable.bytes := by rfl
  obtain ⟨namesIn, h⟩ := load_names
  have hnames := (h s ⟨"a.dbf"⟩ unusualTable.bytes hread).1 unusualTable rfl
  refine ⟨s, hread, hnames, ?_⟩
  rintro ⟨e, he⟩
  rw [hnames] at he
  cases he

end Columns

end SeaChart
