import Mathlib.Data.Nat.Notation

/-!
# Finding a file in the ramdisk (`kernel/fs/tarfs.c`)

The ramdisk is a USTAR archive in memory.  Here it is the byte function that the parser reads, whose
values from `size` on are whatever follows the archive in memory: the parser reads names and headers
without looking where they end.
-/

namespace Bangos.Fs

/-- `tar_archive_base` and `tar_archive_size`; `loaded` says that the base is not null. -/
structure Ramdisk where
  bytes : ℕ → UInt8
  size : ℕ
  loaded : Bool

/-- `parse_octal` of `n` characters at `a`, continuing the value `val`. -/
def parseOctal (b : ℕ → UInt8) : ℕ → ℕ → ℕ → ℕ
  | _, 0, val => val
  | a, n + 1, val =>
    let c := b a
    if c < 0x30 ∨ 0x37 < c then val else parseOctal b (a + 1) n (val * 8 + (c.toNat - 0x30))

/-- A character that `normalize_path` skips: `/` or `.`. -/
def isPathPad (c : UInt8) : Bool := c == 0x2F || c == 0x2E

/-- `normalize_path` of a path given as a string. -/
def normalizePath (path : List UInt8) : List UInt8 := path.dropWhile isPathPad

/-- `normalize_path` of the string at address `a`, which skips at most `fuel` characters. -/
def normalizeAt (b : ℕ → UInt8) : ℕ → ℕ → ℕ
  | 0, a => a
  | fuel + 1, a => if isPathPad (b a) then normalizeAt b fuel (a + 1) else a

/-- `kstrcmp(s, b + a) == 0` for a string `s` without NUL. -/
def strAt (b : ℕ → UInt8) : List UInt8 → ℕ → Bool
  | [], a => b a == 0
  | c :: s, a => b a == c && strAt b s (a + 1)

/-- The string `bin/`. -/
def binDir : List UInt8 := [0x62, 0x69, 0x6E, 0x2F]

/-- `kstrncmp(b + a, "bin/", 4) == 0`. -/
def binAt (b : ℕ → UInt8) (a : ℕ) : Bool :=
  b a == 0x62 && b (a + 1) == 0x69 && b (a + 2) == 0x6E && b (a + 3) == 0x2F

/-- `path_matches` of a path with the entry name at `a`. -/
def pathMatches (b : ℕ → UInt8) (fuel : ℕ) (target : List UInt8) (a : ℕ) : Bool :=
  let normTarget := normalizePath target
  let normEntry := normalizeAt b fuel a
  strAt b normTarget normEntry ||
    (binAt b normEntry && strAt b normTarget (normEntry + 4)) ||
    (binDir.isPrefixOf normTarget && strAt b (normTarget.drop 4) normEntry)

/-- `hdr->size` of the header at `offset`. -/
def tarFileSize (b : ℕ → UInt8) (offset : ℕ) : ℕ := parseOctal b (offset + 124) 12 0

/-- The loop of `tarfs_lookup`; every turn moves on by 512 bytes at least. -/
def tarfsScan (r : Ramdisk) (path : List UInt8) : ℕ → ℕ → Option (ℕ × ℕ)
  | 0, _ => none
  | fuel + 1, offset =>
    if offset + 512 ≤ r.size ∧ r.bytes offset ≠ 0 then
      let fileSize := tarFileSize r.bytes offset
      let typeflag := r.bytes (offset + 156)
      if (typeflag = 0x30 ∨ typeflag = 0) ∧ pathMatches r.bytes r.size path offset then
        some (offset + 512, fileSize)
      else tarfsScan r path fuel (offset + 512 + (fileSize + 511) / 512 * 512)
    else none

/-- `tarfs_lookup`: where the data of the file starts in the archive, and its size. -/
def tarfsLookup (r : Ramdisk) (path : List UInt8) : Option (ℕ × ℕ) :=
  if !r.loaded ∨ r.size < 512 then none else tarfsScan r path (r.size / 512 + 1) 0

end Bangos.Fs
