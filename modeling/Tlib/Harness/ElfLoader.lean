import Tlib.Harness.GuestMemory
import Tlib.Library.ByteOrder

/-!
Contract: the ELF loader of the test harness.

Owns: the headers as the loader reads them, its checks and errors, and the files of which it leaves
the segments in memory.
-/

namespace Tlib.Harness

open Tlib.Library.ByteOrder List Option

abbrev File := List Byte

/-- `fseek` and `read_fully`; `none` is a short read. -/
def readFully (file : File) (offset len : Nat) : Option (List Byte) :=
  if offset + len ≤ file.length then some ((file.drop offset).take len) else none

def headerField (bytes : List Byte) (offset len : Nat) : Nat :=
  decode .little ((bytes.drop offset).take len)

structure Elf32Ehdr where
  ident : List Byte
  (phoff phentsize phnum : Nat)

structure Elf32Phdr where
  (type offset vaddr paddr filesz memsz : Nat)

def ehdrSize : Nat := 52

def phdrSize : Nat := 32

def Elf32Ehdr.ofBytes (bytes : List Byte) : Elf32Ehdr where
  ident := bytes.take 16
  phoff := headerField bytes 28 4
  phentsize := headerField bytes 42 2
  phnum := headerField bytes 44 2

def Elf32Phdr.ofBytes (bytes : List Byte) : Elf32Phdr where
  type := headerField bytes 0 4
  offset := headerField bytes 4 4
  vaddr := headerField bytes 8 4
  paddr := headerField bytes 12 4
  filesz := headerField bytes 16 4
  memsz := headerField bytes 20 4

def elfMagic : List Byte := [0x7F, 0x45, 0x4C, 0x46]

/-- `ELFCLASS32` and `ELFDATA2LSB` -/
def elf32LittleEndian : List Byte := [1, 1]

def ptLoad : Nat := 1

/-- The messages, with the segment that they name. -/
inductive HarnessElfError where
  | shortElfHeader
  | notElf
  | notElf32LittleEndian
  | noProgramHeaders
  | unexpectedProgramHeaderSize
  | shortProgramHeader (i : Nat)
  | outOfMemory (i : Nat)
  | failedToRead (i : Nat)
  | failedToPlace (i guestAddr : Nat)
deriving DecidableEq

def loadEhdr (file : File) : Except HarnessElfError Elf32Ehdr :=
  match readFully file 0 ehdrSize with
  | none => .error .shortElfHeader
  | some bytes =>
    let eh := Elf32Ehdr.ofBytes bytes
    if eh.ident.take 4 ≠ elfMagic then .error .notElf
    else if (eh.ident.drop 4).take 2 ≠ elf32LittleEndian then .error .notElf32LittleEndian
    else if eh.phoff = 0 ∨ eh.phnum = 0 then .error .noProgramHeaders
    else if eh.phentsize < phdrSize then .error .unexpectedProgramHeaderSize
    else .ok eh

/-- How the loader, or one turn of its loop, ends. -/
inductive LoadEnd where
  | loaded
  | failed (error : HarnessElfError)
  | overflow
deriving DecidableEq

/-- The physical address is preferred. -/
def Elf32Phdr.guestAddr (ph : Elf32Phdr) : Nat := if ph.paddr ≠ 0 then ph.paddr else ph.vaddr

/-- How many bytes `fread` reads. -/
def Elf32Phdr.readCount (file : File) (ph : Elf32Phdr) : Nat :=
  min ph.filesz (file.length - ph.offset)

/-- The buffer of a segment, which `calloc` has cleared. -/
def Elf32Phdr.buffer (file : File) (ph : Elf32Phdr) : List Byte :=
  (file.drop ph.offset).take ph.filesz ++ replicate (ph.memsz - ph.filesz) 0

section

variable (memory : GuestMemory) (calloc : Nat → Bool) (file : File)

/-- A turn of the loop with its program header, and the bytes that it writes. -/
def loadSegment (i : Nat) (ph : Elf32Phdr) : LoadEnd × List Write :=
  if ph.type ≠ ptLoad ∨ ph.memsz = 0 then (.loaded, [])
  else if ¬calloc ph.memsz then (.failed (.outOfMemory i), [])
  else if ph.memsz < ph.readCount file then (.overflow, [])
  else if ph.readCount file < ph.filesz then (.failed (.failedToRead i), [])
  else
    let result := guestWriteBytes memory ph.guestAddr (ph.buffer file)
    if result.1 then (.loaded, result.2) else (.failed (.failedToPlace i ph.guestAddr), result.2)

/-- `eh.e_phoff + (uint32_t)i * eh.e_phentsize` -/
def Elf32Ehdr.phdrOffset (eh : Elf32Ehdr) (i : Nat) : Nat := (eh.phoff + i * eh.phentsize) % 2 ^ 32

def loadTurn (eh : Elf32Ehdr) (i : Nat) : LoadEnd × List Write :=
  match readFully file (eh.phdrOffset i) phdrSize with
  | none => (.failed (.shortProgramHeader i), [])
  | some bytes => loadSegment memory calloc file i (Elf32Phdr.ofBytes bytes)

/-- What a load has done, turn by turn. -/
structure Load where
  result : LoadEnd
  placed : List (List Write)
  unfinished : List Write

/-- The rest of the loop. -/
def loadFrom (eh : Elf32Ehdr) : Nat → Nat → Load
  | 0, _ => ⟨.loaded, [], []⟩
  | count + 1, i =>
    let turn := loadTurn memory calloc file eh i
    if turn.1 = .loaded then
      let rest := loadFrom eh count (i + 1)
      { rest with placed := turn.2 :: rest.placed }
    else ⟨turn.1, [], turn.2⟩

def harnessElfLoadFile : Load :=
  match loadEhdr file with
  | .error error => ⟨.failed error, [], []⟩
  | .ok eh => loadFrom memory calloc file eh eh.phnum 0

end

section

variable (memory : GuestMemory) (file : File)

def programHeader (eh : Elf32Ehdr) (i : Nat) : Option Elf32Phdr :=
  (readFully file (eh.phoff + i * eh.phentsize) phdrSize).map .ofBytes

/-- The bytes of a segment at its addresses: those of the file, followed by zeros. -/
def segmentImage (ph : Elf32Phdr) : Option (List Write) :=
  if ph.type ≠ ptLoad then some []
  else if ph.filesz ≤ ph.memsz ∧ ph.readCount file = ph.filesz then
    placeBytes memory ph.guestAddr (ph.buffer file)
  else none

/-- A load reports an error or places every segment, and writes nothing else. -/
structure Load.Faithful (load : Load) : Prop where
  inBounds : load.result ≠ .overflow
  nothing : load.unfinished = []
  segments : load.result = .loaded → ∃ eh, loadEhdr file = .ok eh ∧
    load.placed.length = eh.phnum ∧ ∀ i < eh.phnum,
      load.placed[i]? = (programHeader file eh i).bind (segmentImage memory file)

end

section

variable (memory : GuestMemory) (calloc : Nat → Bool) (file : File)

def readHeader (eh : Elf32Ehdr) (i : Nat) : Option Elf32Phdr :=
  (readFully file (eh.phdrOffset i) phdrSize).map .ofBytes

/-- The segment is to be read, and there is memory for it. -/
def Elf32Phdr.Allocated (ph : Elf32Phdr) : Prop :=
  ph.type = ptLoad ∧ ph.memsz ≠ 0 ∧ calloc ph.memsz = true

/-- The loop goes on behind a header. -/
def Passes (ph : Elf32Phdr) : Prop :=
  ph.type ≠ ptLoad ∨ ph.memsz = 0 ∨ calloc ph.memsz = true ∧ ph.filesz ≤ ph.memsz ∧
    ph.readCount file = ph.filesz ∧ (placeBytes memory ph.guestAddr (ph.buffer file)).isSome = true

/-- The bytes in the file fit, and if not all addresses are mapped, the first one is not. -/
structure StopsClean (ph : Elf32Phdr) : Prop where
  fits : ph.Allocated calloc → ph.readCount file ≤ ph.memsz
  unmapped : ph.Allocated calloc → ph.readCount file = ph.filesz → ph.filesz ≤ ph.memsz →
    placeBytes memory ph.guestAddr (ph.buffer file) = none → findRegion memory ph.guestAddr = none

/-- The loop gets to a header. -/
def Reaches (eh : Elf32Ehdr) (i : Nat) : Prop :=
  ∀ j < i, ∃ ph, readHeader file eh j = some ph ∧ Passes memory calloc file ph

/-- The bytes that a header stands for in the loader, which skips an empty segment. -/
def loadedImage (ph : Elf32Phdr) : Option (List Write) :=
  if ph.memsz = 0 then some [] else segmentImage memory file ph

/-- Every header that is reached can be left in good order. -/
structure WellFormed (eh : Elf32Ehdr) : Prop where
  clean : ∀ i < eh.phnum, Reaches memory calloc file eh i →
    ∀ ph, readHeader file eh i = some ph → StopsClean memory calloc file ph
  table : Reaches memory calloc file eh eh.phnum → ∀ i < eh.phnum,
    ∀ ph, readHeader file eh i = some ph →
      (programHeader file eh i).bind (segmentImage memory file) = loadedImage memory file ph

end

variable {memory : GuestMemory} {calloc : Nat → Bool} {file : File} {eh : Elf32Ehdr}
  {ph : Elf32Phdr}

theorem readCount_le : ph.readCount file ≤ ph.filesz := Nat.min_le_left _ _

theorem loadSegment_place (i : Nat) (allocated : ph.Allocated calloc)
    (complete : ph.readCount file = ph.filesz) (fits : ph.filesz ≤ ph.memsz) :
    loadSegment memory calloc file i ph =
      if (guestWriteBytes memory ph.guestAddr (ph.buffer file)).1 = true then
        (.loaded, (guestWriteBytes memory ph.guestAddr (ph.buffer file)).2)
      else (.failed (.failedToPlace i ph.guestAddr),
        (guestWriteBytes memory ph.guestAddr (ph.buffer file)).2) := by
  obtain ⟨isLoad, nonempty, room⟩ := allocated
  unfold loadSegment
  rw [if_neg (not_or.mpr ⟨not_not.mpr isLoad, nonempty⟩), if_neg (not_not.mpr room),
    if_neg (by omega), if_neg (by omega)]

theorem loadSegment_cases (memory : GuestMemory) (calloc : Nat → Bool) (file : File) (i : Nat)
    (ph : Elf32Phdr) :
    ((ph.type ≠ ptLoad ∨ ph.memsz = 0) ∧ loadSegment memory calloc file i ph = (.loaded, [])) ∨
    (¬(ph.type ≠ ptLoad ∨ ph.memsz = 0) ∧ ¬ph.Allocated calloc ∧
      loadSegment memory calloc file i ph = (.failed (.outOfMemory i), [])) ∨
    (ph.Allocated calloc ∧ ph.memsz < ph.readCount file ∧
      loadSegment memory calloc file i ph = (.overflow, [])) ∨
    (ph.Allocated calloc ∧ ph.readCount file ≤ ph.memsz ∧ ph.readCount file < ph.filesz ∧
      loadSegment memory calloc file i ph = (.failed (.failedToRead i), [])) ∨
    (ph.Allocated calloc ∧ ph.readCount file = ph.filesz ∧ ph.filesz ≤ ph.memsz) := by
  by_cases skipped : ph.type ≠ ptLoad ∨ ph.memsz = 0
  · exact .inl ⟨skipped, if_pos skipped⟩
  · by_cases room : calloc ph.memsz = true
    · have allocated : ph.Allocated calloc := by
        rw [not_or, not_not] at skipped
        exact ⟨skipped.1, skipped.2, room⟩
      by_cases overflow : ph.memsz < ph.readCount file
      · refine .inr (.inr (.inl ⟨allocated, overflow, ?_⟩))
        unfold loadSegment
        rw [if_neg skipped, if_neg (not_not.mpr room), if_pos overflow]
      · by_cases short : ph.readCount file < ph.filesz
        · refine .inr (.inr (.inr (.inl ⟨allocated, by omega, short, ?_⟩)))
          unfold loadSegment
          rw [if_neg skipped, if_neg (not_not.mpr room), if_neg overflow, if_pos short]
        · have le := @readCount_le file ph
          exact .inr (.inr (.inr (.inr ⟨allocated, by omega, by omega⟩)))
    · refine .inr (.inl ⟨skipped, fun allocated => room allocated.2.2, ?_⟩)
      unfold loadSegment
      rw [if_neg skipped, if_pos room]

theorem loadSegment_loaded_iff (i : Nat) (ph : Elf32Phdr) :
    (loadSegment memory calloc file i ph).1 = .loaded ↔ Passes memory calloc file ph := by
  unfold Passes
  rcases loadSegment_cases memory calloc file i ph with ⟨skipped, run⟩ | ⟨taken, noRoom, run⟩ |
    ⟨allocated, overflow, run⟩ | ⟨allocated, -, short, run⟩ | ⟨allocated, complete, fits⟩
  · rw [run]
    exact iff_of_true rfl (or_assoc.mp (.inl skipped))
  · rw [run]
    rw [not_or, not_not] at taken
    refine iff_of_false (fun same => by cases same) ?_
    rintro (other | empty | ⟨room, -⟩)
    · exact other taken.1
    · exact taken.2 empty
    · exact noRoom ⟨taken.1, taken.2, room⟩
  · rw [run]
    refine iff_of_false (fun same => by cases same) ?_
    rintro (other | empty | ⟨-, fits, complete, -⟩)
    · exact other allocated.1
    · exact allocated.2.1 empty
    · omega
  · rw [run]
    refine iff_of_false (fun same => by cases same) ?_
    rintro (other | empty | ⟨-, -, complete, -⟩)
    · exact other allocated.1
    · exact allocated.2.1 empty
    · omega
  · rw [loadSegment_place i allocated complete fits]
    have written := guestWriteBytes_written memory ph.guestAddr (ph.buffer file)
    cases placed : placeBytes memory ph.guestAddr (ph.buffer file) with
    | some writes =>
      rw [written.all writes placed]
      exact iff_of_true rfl (.inr (.inr ⟨allocated.2.2, fits, complete, rfl⟩))
    | none =>
      rw [(written.stopped placed).1, if_neg Bool.false_ne_true]
      refine iff_of_false (fun same => by cases same) ?_
      rintro (other | empty | ⟨-, -, -, isSome⟩)
      · exact other allocated.1
      · exact allocated.2.1 empty
      · cases isSome

theorem loadSegment_clean_iff (i : Nat) (ph : Elf32Phdr) :
    ((loadSegment memory calloc file i ph).1 ≠ .overflow ∧
      ((loadSegment memory calloc file i ph).1 ≠ .loaded →
        (loadSegment memory calloc file i ph).2 = [])) ↔ StopsClean memory calloc file ph := by
  rcases loadSegment_cases memory calloc file i ph with ⟨skipped, run⟩ | ⟨taken, noRoom, run⟩ |
    ⟨allocated, overflow, run⟩ | ⟨allocated, fits, short, run⟩ | ⟨allocated, complete, fits⟩
  · have notAllocated : ¬ph.Allocated calloc := fun allocated =>
      skipped.elim (fun other => other allocated.1) allocated.2.1
    rw [run]
    exact iff_of_true ⟨by decide, fun _ => rfl⟩
      ⟨fun allocated => (notAllocated allocated).elim, fun allocated => (notAllocated allocated).elim⟩
  · rw [run]
    exact iff_of_true ⟨(fun same => by cases same), fun _ => rfl⟩
      ⟨fun allocated => (noRoom allocated).elim, fun allocated => (noRoom allocated).elim⟩
  · rw [run]
    refine iff_of_false (fun clean => clean.1 rfl) fun clean => ?_
    have fits := clean.fits allocated
    omega
  · rw [run]
    refine iff_of_true ⟨(fun same => by cases same), fun _ => rfl⟩ ⟨fun _ => fits, ?_⟩
    omega
  · have written := guestWriteBytes_written memory ph.guestAddr (ph.buffer file)
    rw [loadSegment_place i allocated complete fits]
    cases placed : placeBytes memory ph.guestAddr (ph.buffer file) with
    | some writes =>
      rw [written.all writes placed]
      refine iff_of_true ⟨(fun same => by cases same), fun notLoaded => (notLoaded rfl).elim⟩
        ⟨fun _ => by omega, ?_⟩
      intro _ _ _ unplaced
      rw [placed] at unplaced
      cases unplaced
    | none =>
      obtain ⟨failed, nothing⟩ := written.stopped placed
      rw [failed, if_neg Bool.false_ne_true]
      constructor
      · intro clean
        exact ⟨(fun _ => by omega), fun _ _ _ _ => nothing.mp (clean.2 fun same => by cases same)⟩
      · intro clean
        exact ⟨(fun same => by cases same),
          fun _ => nothing.mpr (clean.unmapped allocated complete fits placed)⟩

theorem segmentImage_skipped (skipped : ph.type ≠ ptLoad) : segmentImage memory file ph = some [] :=
  if_pos skipped

theorem loadSegment_loadedImage {i : Nat} (passes : Passes memory calloc file ph) :
    loadedImage memory file ph = some (loadSegment memory calloc file i ph).2 := by
  unfold loadedImage
  split_ifs with empty
  · rw [show loadSegment memory calloc file i ph = (.loaded, []) from if_pos (.inr empty)]
  · rcases passes with other | isEmpty | ⟨room, fits, complete, isSome⟩
    · rw [segmentImage_skipped other,
        show loadSegment memory calloc file i ph = (.loaded, []) from if_pos (.inl other)]
    · exact absurd isEmpty empty
    · by_cases isLoad : ph.type = ptLoad
      · obtain ⟨writes, placed⟩ := isSome_iff_exists.mp isSome
        have written := guestWriteBytes_written memory ph.guestAddr (ph.buffer file)
        unfold segmentImage
        rw [if_neg (not_not.mpr isLoad), if_pos ⟨fits, complete⟩, placed,
          loadSegment_place i ⟨isLoad, empty, room⟩ complete fits, written.all writes placed]
        rfl
      · rw [segmentImage_skipped isLoad,
          show loadSegment memory calloc file i ph = (.loaded, []) from if_pos (.inl isLoad)]

section

variable {i count k : Nat}

theorem loadTurn_short (short : readHeader file eh i = none) :
    loadTurn memory calloc file eh i = (.failed (.shortProgramHeader i), []) := by
  unfold readHeader at short
  rw [map_eq_none_iff] at short
  unfold loadTurn
  rw [short]

theorem loadTurn_read (read : readHeader file eh i = some ph) :
    loadTurn memory calloc file eh i = loadSegment memory calloc file i ph := by
  unfold readHeader at read
  rw [map_eq_some_iff] at read
  obtain ⟨bytes, read, rfl⟩ := read
  unfold loadTurn
  rw [read]

theorem loadTurn_loaded_iff : (loadTurn memory calloc file eh i).1 = .loaded ↔
      ∃ ph, readHeader file eh i = some ph ∧ Passes memory calloc file ph := by
  cases read : readHeader file eh i with
  | none =>
    rw [loadTurn_short read]
    refine iff_of_false (fun same => by cases same) ?_
    rintro ⟨ph, same, -⟩
    cases same
  | some ph =>
    rw [loadTurn_read read, loadSegment_loaded_iff]
    constructor
    · intro passes
      exact ⟨ph, rfl, passes⟩
    · rintro ⟨other, same, passes⟩
      rw [some.inj same]
      exact passes

theorem reaches_iff :
    Reaches memory calloc file eh k ↔ ∀ j < k, (loadTurn memory calloc file eh j).1 = .loaded :=
  forall₂_congr fun _ _ => loadTurn_loaded_iff.symm

theorem reaches_or_stops (memory : GuestMemory) (calloc : Nat → Bool) (file : File) (eh : Elf32Ehdr)
    (count : Nat) :
    Reaches memory calloc file eh count ∨ ∃ k < count, Reaches memory calloc file eh k ∧
      (loadTurn memory calloc file eh k).1 ≠ .loaded := by
  induction count with
  | zero => exact .inl fun _ less => (Nat.not_lt_zero _ less).elim
  | succ count ih =>
    rcases ih with reaches | ⟨k, less, before, stops⟩
    · by_cases loaded : (loadTurn memory calloc file eh count).1 = .loaded
      · refine .inl (reaches_iff.mpr fun j less => ?_)
        rcases Nat.lt_succ_iff_lt_or_eq.mp less with earlier | rfl
        · exact reaches_iff.mp reaches j earlier
        · exact loaded
      · exact .inr ⟨count, Nat.lt_succ_self _, reaches, loaded⟩
    · exact .inr ⟨k, Nat.lt_succ_of_lt less, before, stops⟩

theorem loadFrom_stops (inside : k < count)
    (before : ∀ j < k, (loadTurn memory calloc file eh (i + j)).1 = .loaded)
    (stops : (loadTurn memory calloc file eh (i + k)).1 ≠ .loaded) :
    (loadFrom memory calloc file eh count i).result = (loadTurn memory calloc file eh (i + k)).1 ∧
      (loadFrom memory calloc file eh count i).unfinished =
        (loadTurn memory calloc file eh (i + k)).2 := by
  induction k generalizing i count with
  | zero =>
    obtain ⟨rest, rfl⟩ := Nat.exists_eq_succ_of_ne_zero (Nat.ne_of_gt inside)
    rw [Nat.add_zero] at stops ⊢
    unfold loadFrom
    rw [if_neg stops]
    exact ⟨rfl, rfl⟩
  | succ k ih =>
    obtain ⟨rest, rfl⟩ := Nat.exists_eq_succ_of_ne_zero (Nat.ne_of_gt (Nat.zero_lt_of_lt inside))
    have first : (loadTurn memory calloc file eh i).1 = .loaded := before 0 (by omega)
    have next : i + (k + 1) = i + 1 + k := by omega
    rw [next] at stops ⊢
    have later := @ih (i + 1) rest (by omega)
      (fun j less => by
        rw [show i + 1 + j = i + (j + 1) by omega]
        exact before (j + 1) (by omega)) stops
    unfold loadFrom
    rw [if_pos first]
    exact later

theorem loadFrom_loaded
    (all : ∀ j < count, (loadTurn memory calloc file eh (i + j)).1 = .loaded) :
    loadFrom memory calloc file eh count i =
      ⟨.loaded, (range' i count).map fun j => (loadTurn memory calloc file eh j).2, []⟩ := by
  induction count generalizing i with
  | zero => rfl
  | succ count ih =>
    have first : (loadTurn memory calloc file eh i).1 = .loaded := all 0 (by omega)
    have rest := @ih (i + 1) fun j less => by
      rw [show i + 1 + j = i + (j + 1) by omega]
      exact all (j + 1) (by omega)
    unfold loadFrom
    rw [if_pos first, rest, range'_succ, map_cons]

end

theorem Passes.clean (passes : Passes memory calloc file ph) : StopsClean memory calloc file ph := by
  have loaded := (@loadSegment_loaded_iff memory calloc file 0 ph).mpr passes
  refine (loadSegment_clean_iff 0 ph).mp ⟨fun same => ?_, fun notLoaded => (notLoaded loaded).elim⟩
  rw [loaded] at same
  cases same

theorem loadFrom_faithful_of_reaches (header : loadEhdr file = .ok eh)
    (reaches : Reaches memory calloc file eh eh.phnum) :
    (loadFrom memory calloc file eh eh.phnum 0).Faithful memory file ↔
      WellFormed memory calloc file eh := by
  have all : ∀ j < eh.phnum, (loadTurn memory calloc file eh (0 + j)).1 = .loaded := by
    intro j less
    rw [Nat.zero_add]
    exact reaches_iff.mp reaches j less
  rw [loadFrom_loaded all]
  have placed : ∀ i < eh.phnum, ∀ ph, readHeader file eh i = some ph →
      ((range' 0 eh.phnum).map fun j => (loadTurn memory calloc file eh j).2)[i]? =
        loadedImage memory file ph := by
    intro i less ph read
    obtain ⟨other, same, passes⟩ := reaches i less
    rw [read, some.injEq] at same
    rw [← same] at passes
    rw [@loadSegment_loadedImage memory calloc file ph i passes, ← loadTurn_read read,
      List.getElem?_map, List.getElem?_range' less, Nat.one_mul, Nat.zero_add, map_some]
  constructor
  · intro faithful
    obtain ⟨other, same, -, segments⟩ := faithful.segments rfl
    rw [header, Except.ok.injEq] at same
    rw [← same] at segments
    exact
      { clean := fun i less _ ph read => by
          obtain ⟨other, same, passes⟩ := reaches i less
          rw [read, some.injEq] at same
          rw [same]
          exact passes.clean
        table := fun _ i less ph read => by
          rw [← segments i less, placed i less ph read] }
  · intro wellFormed
    refine ⟨(fun same => by cases same), rfl, fun _ => ⟨eh, header, ?_, fun i less => ?_⟩⟩
    · rw [length_map, length_range']
    · obtain ⟨ph, read, -⟩ := reaches i less
      rw [placed i less ph read, wellFormed.table reaches i less ph read]

theorem loadFrom_faithful_of_stops {k : Nat} (inside : k < eh.phnum)
    (before : Reaches memory calloc file eh k)
    (stops : (loadTurn memory calloc file eh k).1 ≠ .loaded) :
    (loadFrom memory calloc file eh eh.phnum 0).Faithful memory file ↔
      WellFormed memory calloc file eh := by
  obtain ⟨result, unfinished⟩ := @loadFrom_stops memory calloc file eh 0 eh.phnum k inside
    (fun j less => by
      rw [Nat.zero_add]
      exact reaches_iff.mp before j less)
    (by rwa [Nat.zero_add])
  rw [Nat.zero_add] at result unfinished
  have notReached : ∀ i, k < i → ¬Reaches memory calloc file eh i := fun i less reaches =>
    stops (reaches_iff.mp reaches k less)
  constructor
  · intro faithful
    refine ⟨fun i less reaches ph read => ?_, fun reaches => (notReached _ inside reaches).elim⟩
    rcases Nat.lt_trichotomy i k with earlier | rfl | later
    · obtain ⟨other, same, passes⟩ := before i earlier
      rw [read, some.injEq] at same
      rw [same]
      exact passes.clean
    · rw [loadTurn_read read] at result unfinished
      rw [← loadSegment_clean_iff i ph, ← result, ← unfinished]
      exact ⟨faithful.inBounds, fun _ => faithful.nothing⟩
    · exact (notReached i later reaches).elim
  · intro wellFormed
    have clean : (loadTurn memory calloc file eh k).1 ≠ .overflow ∧
        (loadTurn memory calloc file eh k).2 = [] := by
      cases read : readHeader file eh k with
      | none =>
        rw [loadTurn_short read]
        exact ⟨(fun same => by cases same), rfl⟩
      | some ph =>
        rw [loadTurn_read read] at stops ⊢
        obtain ⟨inBounds, nothing⟩ :=
          (loadSegment_clean_iff k ph).mpr (wellFormed.clean k inside before ph read)
        exact ⟨inBounds, nothing stops⟩
    rw [← result, ← unfinished] at clean
    refine ⟨clean.1, clean.2, fun loaded => ?_⟩
    rw [result] at loaded
    exact (stops loaded).elim

/-- The loader is safe and faithful for exactly the files with a table of program headers that is
well-formed as far as it is read. -/
theorem harnessElfLoadFile_faithful_iff (memory : GuestMemory) (calloc : Nat → Bool) (file : File) :
    (harnessElfLoadFile memory calloc file).Faithful memory file ↔
      ∀ eh, loadEhdr file = .ok eh → WellFormed memory calloc file eh := by
  unfold harnessElfLoadFile
  cases header : loadEhdr file with
  | error error =>
    refine iff_of_true ⟨(fun same => by cases same), rfl, (fun same => by cases same)⟩ ?_
    intro eh same
    cases same
  | ok eh =>
    have whole : (loadFrom memory calloc file eh eh.phnum 0).Faithful memory file ↔
        WellFormed memory calloc file eh := by
      rcases reaches_or_stops memory calloc file eh eh.phnum with reaches | ⟨k, inside, before, stops⟩
      · exact loadFrom_faithful_of_reaches header reaches
      · exact loadFrom_faithful_of_stops inside before stops
    rw [whole]
    constructor
    · rintro wellFormed other same
      rw [← Except.ok.inj same]
      exact wellFormed
    · intro wellFormed
      exact wellFormed eh rfl

def overlongSegment : File :=
  [0x7F, 0x45, 0x4C, 0x46, 1, 1, 1, 0, 0, 0, 0, 0, 0, 0, 0, 0] ++
  [2, 0, 0xC5, 0, 1, 0, 0, 0, 0, 0x10, 0, 0, 52, 0, 0, 0, 0, 0, 0, 0, 0, 0, 0, 0, 52, 0, 32, 0, 1, 0,
    0, 0, 0, 0, 0, 0] ++
  [1, 0, 0, 0, 84, 0, 0, 0, 0, 0x10, 0, 0, 0, 0x10, 0, 0, 5, 0, 0, 0, 4, 0, 0, 0, 7, 0, 0, 0, 1, 0, 0,
    0] ++
  [1, 2, 3, 4, 5]

theorem oneRegion_end_lt : 0x1000 + 0x1000 < 2 ^ 64 := by
  decide

def oneRegion : GuestMemory where
  regions := [⟨0x1000, 0x1000, oneRegion_end_lt⟩]
  disjoint := pairwise_singleton _ _

/-- `fread` writes the fifth byte behind the buffer. -/
theorem overlongSegment_overflows :
    ¬(harnessElfLoadFile oneRegion (fun _ => true) overlongSegment).Faithful oneRegion
      overlongSegment := by
  have overflow : (harnessElfLoadFile oneRegion (fun _ => true) overlongSegment).result =
      .overflow := by
    decide
  intro faithful
  exact faithful.inBounds overflow

end Tlib.Harness
