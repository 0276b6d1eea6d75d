/-
The dm-verity root hash stored in a disk image: the GPT names the verity
partition, whose superblock says how to hash the block after it.
-/
import Kettle.Host.FileSystem
import Kettle.Lib.Hex

namespace Kettle

namespace Verify

def lba : Nat := 512

def headBytes : Nat := 64 * 1024

/-- `verity\0\0`. -/
def verityMagic : Bytes := [0x76, 0x65, 0x72, 0x69, 0x74, 0x79, 0, 0]

/-- `EFI PART`. -/
def gptMagic : Bytes := [0x45, 0x46, 0x49, 0x20, 0x50, 0x41, 0x52, 0x54]

def verityTypeGuid : Bytes :=
  [0xed, 0x57, 0x73, 0x2c, 0xd2, 0xeb, 0xd9, 0x46,
    0xae, 0xc1, 0x23, 0xd4, 0x37, 0xec, 0x2b, 0xf5]

/-- The hash functions of dm-verity, as hex. -/
structure VerityHash where
  sha256Hex : Bytes → String
  sha512Hex : Bytes → String

variable (hash : VerityHash)

def digestWithSalt (algo : String) (salt block : Bytes) :
    Except String String :=
  if algo = "sha256" then .ok (hash.sha256Hex (salt ++ block))
  else if algo = "sha512" then .ok (hash.sha512Hex (salt ++ block))
  else .error s!"unsupported dm-verity hash algorithm: {algo}"

/-- The root hash that a superblock with its hash block stands for. -/
def superblockRoothash (part : Bytes) : Except String String := do
  let field : Bytes := part.slice 32 32
  -- without a NUL the field is used whole
  let algo ← okOr "verity algorithm not UTF-8"
    (String.fromUTF8? ⟨(field.takeWhile (· ≠ 0)).toArray⟩)
  let hashBlockSize := Bytes.toNatLE (part.slice 68 4)
  let saltSize := Bytes.toNatLE (part.slice 80 2)
  if part.length < 88 + saltSize then
    .error "verity superblock salt out of range"
  else do
    let rootBlock ← okOr
      "verity partition too small to hold a root hash block"
      (part.range? hashBlockSize (hashBlockSize * 2))
    digestWithSalt hash algo (part.slice 88 saltSize) rootBlock

def roothashFromVerityPartition (part : Bytes) : Except String String :=
  let version := Bytes.toNatLE (part.slice 8 4)
  if part.length < 4096 ∨ part.slice 0 8 ≠ verityMagic then
    .error "not a dm-verity partition (bad superblock magic)"
  else if version ≠ 1 then
    .error s!"unsupported dm-verity superblock version: {version}"
  else superblockRoothash hash part

/-- Where the entry of a verity partition says that it lies. -/
def verityExtent (entry : Bytes) : Except String (Nat × Nat) :=
  let first := Bytes.toNatLE (entry.slice 32 8)
  let last := Bytes.toNatLE (entry.slice 40 8)
  if last < first then
    .error s!"verity partition has EndingLBA {last} before StartingLBA {first}"
  else if 2 ^ 64 ≤ last - first + 1 then
    .error "verity partition LBA range overflows u64"
  else if 2 ^ 64 ≤ first * lba then
    .error "verity partition offset overflows"
  else if 2 ^ 64 ≤ (last - first + 1) * lba then
    .error "verity partition length overflows"
  else .ok (first * lba, (last - first + 1) * lba)

/-- The loop over the entries; the offset wraps. -/
def findVerityEntry (disk : Bytes) (entrySize : Nat) :
    Nat → Nat → Except String (Nat × Nat)
  | 0, _ => .error "no root-verity partition found in disk image"
  | count + 1, off =>
      match disk.range? off ((off + entrySize) % 2 ^ 64) with
      | none => .error "GPT partition entry out of range"
      | some entry =>
          if entry.slice 0 16 = verityTypeGuid then verityExtent entry
          else
            findVerityEntry disk entrySize count ((off + entrySize) % 2 ^ 64)

def findVerityPartition (disk : Bytes) : Except String (Nat × Nat) :=
  match disk.range? lba (lba + 92) with
  | none => .error "disk too small for a GPT header"
  | some header =>
      let entriesLba := Bytes.toNatLE (header.slice 72 8)
      let numEntries := Bytes.toNatLE (header.slice 80 4)
      let entrySize := Bytes.toNatLE (header.slice 84 4)
      if header.slice 0 8 ≠ gptMagic then
        .error "image is not a GPT disk (no 'EFI PART' header at LBA1)"
      else if entrySize < 48 then
        .error s!"GPT partition entry size too small: {entrySize}"
      else
        findVerityEntry disk entrySize numEntries (entriesLba * lba % 2 ^ 64)

/-- `read_exact_at`. -/
def readExactAt (contents : Bytes) (context : String) (start count : Nat) :
    Except String Bytes :=
  okOr context (contents.range? start (start + count))

/-- More of the partition, when its hash block reaches further. -/
def readHashBlock (image : Bytes) (start needed : Nat) (part : Bytes) :
    Except String Bytes :=
  if part.length < needed then
    readExactAt image "reading verity root hash block from disk image" start
      needed
  else .ok part

/-- `stored_roothash`, of the bytes of an image. -/
def imageRoothash (image : Bytes) : Except String String := do
  let head ← readExactAt image "reading GPT header from disk image" 0
    (min image.length headBytes)
  let (start, _) ← findVerityPartition head
  let superblock ← readExactAt image
    "reading verity superblock from disk image" start 4096
  let part ← readHashBlock image start
    (Bytes.toNatLE (superblock.slice 68 4) * 2) superblock
  roothashFromVerityPartition hash part

def storedRoothash (files : FileSystem) (imagePath : Path) :
    Except String String := do
  let image ← files.read imagePath
  imageRoothash hash image

end Verify

end Kettle
