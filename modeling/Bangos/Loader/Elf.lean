import Bangos.Mm.PageTable

/-!
# Loading an ELF image (`kernel/loader/elf.c`)

The image lies in memory and is read through the page table, at the offsets of the ELF64
structures.  Each `PT_LOAD` segment gets its frames, its contents and its mappings before the next
header is looked at, and the number of headers, their size, the headers and the contents are read
anew in every turn: a segment that is mapped over the image changes what the next turn reads.

The loop keeps a list of its turns beside its result, for the statements about what it touches.
-/

namespace Bangos.Loader

open Bangos.Mm ByteMem

/-- `MAX_ELF_SEGMENTS`. -/
def maxElfSegments : ℕ := 8

/-- `elf_segment_t`. -/
structure ElfSegment where
  virtAddr : ℕ
  physAddr : ℕ
  numPages : ℕ
deriving DecidableEq

/-- `elf_info_t`; the list holds `num_segments` entries. -/
structure ElfInfo where
  entryPoint : ℕ
  minVaddr : ℕ
  maxVaddr : ℕ
  segments : List ElfSegment
deriving DecidableEq

/-- The fields of an `Elf64_Phdr` that the loader reads. -/
structure Phdr where
  pType : ℕ
  pOffset : ℕ
  pVaddr : ℕ
  pFilesz : ℕ
  pMemsz : ℕ

/-- The byte at offset `x` of the image at `a`.  The page fault of a read that finds no page is not
followed: there the image reads as zeros. -/
def image (m : Mem) (a x : ℕ) : UInt8 := (byteAt m (u64 (a + x))).getD 0

/-- The program header at offset `x` of an image. -/
def phdrAt (d : ℕ → UInt8) (x : ℕ) : Phdr where
  pType := le d x 4
  pOffset := le d (x + 8) 8
  pVaddr := le d (x + 16) 8
  pFilesz := le d (x + 32) 8
  pMemsz := le d (x + 40) 8

/-- The checks on the ELF header: null pointer, size, magic, class and machine. -/
def elfHeaderOk (d : ℕ → UInt8) (a size : ℕ) : Bool :=
  decide (a ≠ 0 ∧ 64 ≤ size ∧ le d 0 4 = 0x464C457F ∧ le d 4 1 = 2 ∧ le d 18 2 = 0x3E)

/-- `vaddr & ~0xFFF`. -/
def Phdr.pageVaddr (p : Phdr) : ℕ := p.pVaddr / 4096 * 4096

/-- `vaddr & 0xFFF`. -/
def Phdr.vaddrOffset (p : Phdr) : ℕ := p.pVaddr % 4096

/-- The number of pages the loader gives a segment. -/
def Phdr.numPages (p : Phdr) : ℕ := u64 (p.pMemsz + p.vaddrOffset + (pageSize - 1)) / pageSize

/-- `PT_LOAD`. -/
def Phdr.isLoad (p : Phdr) : Bool := p.pType == 1

/-- `kmemcpy` of `n` bytes of the image at `a`, from offset `off` on, to the frames at `dst`. -/
def copyImage (m : Mem) (a dst off : ℕ) : ℕ → Mem
  | 0 => m
  | n + 1 =>
    copyImage { m with phys := Function.update m.phys dst (image m a off) } a (dst + 1) (off + 1) n

/-- Contents of a segment whose frames start at `phys`: the bytes of the file, then
zeros. -/
def fillSegment (m : Mem) (a : ℕ) (p : Phdr) (phys : ℕ) : Mem :=
  let m := copyImage m a (phys + p.vaddrOffset) p.pOffset p.pFilesz
  if p.pMemsz > p.pFilesz then
    { m with phys := fill m.phys (phys + p.vaddrOffset + p.pFilesz) (p.pMemsz - p.pFilesz) 0 }
  else m

/-- The bounds and the segment list after a segment at `phys`; only the first
`MAX_ELF_SEGMENTS` are recorded. -/
def ElfInfo.addSegment (info : ElfInfo) (p : Phdr) (phys : ℕ) : ElfInfo where
  entryPoint := info.entryPoint
  minVaddr := min p.pVaddr info.minVaddr
  maxVaddr := max (u64 (p.pVaddr + p.pMemsz)) info.maxVaddr
  segments :=
    if info.segments.length < maxElfSegments then
      info.segments ++ [⟨p.pageVaddr, phys, p.numPages⟩]
    else info.segments

/-- A turn of the loop: `i * e_phentsize`, the header that it reads there, and where the frames of
the segment start, if it is `PT_LOAD` and gets some. -/
structure Turn where
  stride : ℕ
  phdr : Phdr
  frames : Option ℕ

/-- The memory after a segment whose frames start at `phys` has been filled and mapped. -/
def placeSegment (m : Mem) (a : ℕ) (p : Phdr) (phys : ℕ) : Mem :=
  mapUserPages (fillSegment m a p phys) p.pageVaddr phys p.numPages

/-- The loop of `elf_load_binary` from program header `i` on, and its turns; the result is `none`
when the frames run out.  As `e_phnum` has 16 bits, `2 ^ 16` turns are enough. -/
def loadSegments (m : Mem) (a phoff : ℕ) (info : ElfInfo) :
    ℕ → ℕ → (Option ElfInfo × Mem) × List Turn
  | 0, _ => ((some info, m), [])
  | fuel + 1, i =>
    if i < le (image m a) 56 2 then
      let stride := i * le (image m a) 54 2
      let p := phdrAt (image m a) (phoff + stride)
      if p.isLoad then
        match allocPages m p.numPages with
        | (none, m) => ((none, m), [⟨stride, p, none⟩])
        | (some phys, m) =>
          let r := loadSegments (placeSegment m a p phys) a phoff (info.addSegment p phys) fuel
            (i + 1)
          (r.1, ⟨stride, p, some phys⟩ :: r.2)
      else
        let r := loadSegments m a phoff info fuel (i + 1)
        (r.1, ⟨stride, p, none⟩ :: r.2)
    else ((some info, m), [])

/-- What the loop starts from. -/
def initInfo (m : Mem) (a : ℕ) : ElfInfo := ⟨le (image m a) 24 8, 0xFFFFFFFFFFFFFFFF, 0, []⟩

/-- The loop of `elf_load_binary` for the image at `a`. -/
def loadImage (m : Mem) (a : ℕ) : (Option ElfInfo × Mem) × List Turn :=
  loadSegments m a (le (image m a) 32 8) (initInfo m a) (2 ^ 16) 0

/-- `elf_load_binary`. -/
def elfLoadBinary (m : Mem) (a size : ℕ) : Option ElfInfo × Mem :=
  if elfHeaderOk (image m a) a size then (loadImage m a).1 else (none, m)

end Bangos.Loader
