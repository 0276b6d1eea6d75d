/-
The root hash as it is read from an image, and as the whole partition has it.
The reader takes a fixed part of the image, whatever the partition's length.
-/
import Kettle.Verify.Verity

namespace Kettle

namespace Verify

section Superblock

def algorithmField (part : Bytes) : Option String :=
  String.fromUTF8? ⟨((part.slice 32 32).takeWhile (· ≠ 0)).toArray⟩

def hashBlockSize (part : Bytes) : Nat := Bytes.toNatLE (part.slice 68 4)

def saltEnd (part : Bytes) : Nat := 88 + Bytes.toNatLE (part.slice 80 2)

/-- The checks that only look at the fields. -/
structure HeaderAccepted (part : Bytes) : Prop where
  magic : part.slice 0 8 = verityMagic
  version : Bytes.toNatLE (part.slice 8 4) = 1
  algorithm : algorithmField part = some "sha256" ∨
    algorithmField part = some "sha512"

/-- The superblock, its salt and the hash block are there. -/
structure Holds (part : Bytes) : Prop where
  superblock : 4096 ≤ part.length
  salt : saltEnd part ≤ part.length
  block : hashBlockSize part * 2 ≤ part.length

section Outcomes

variable {hash : VerityHash} {part : Bytes} {root : String}

theorem exists_digestWithSalt_iff {algo : String} {salt block : Bytes} :
    (∃ root, digestWithSalt hash algo salt block = .ok root) ↔
      algo = "sha256" ∨ algo = "sha512" := by
  unfold digestWithSalt
  by_cases hsha256 : algo = "sha256"
  · simp [hsha256]
  · by_cases hsha512 : algo = "sha512"
    · simp [hsha512]
    · simp [hsha256, hsha512]

theorem superblockRoothash_ok_iff :
    superblockRoothash hash part = .ok root ↔
      ∃ algo, algorithmField part = some algo ∧
        saltEnd part ≤ part.length ∧ hashBlockSize part * 2 ≤ part.length ∧
        digestWithSalt hash algo (part.slice 88 (saltEnd part - 88))
          (part.slice (hashBlockSize part) (hashBlockSize part)) =
            .ok root := by
  unfold superblockRoothash
  rw [bind_eq_ok_iff]
  simp only [okOr_eq_ok_iff]
  change (∃ algo, algorithmField part = some algo ∧ _) ↔ _
  apply exists_congr
  intro algo
  apply and_congr_right
  intro _
  change (if part.length < saltEnd part then _ else _) = _ ↔ _
  by_cases hsalt : part.length < saltEnd part
  · rw [if_pos hsalt]
    simp [show ¬ saltEnd part ≤ part.length by omega]
  · rw [if_neg hsalt, bind_eq_ok_iff]
    simp only [okOr_eq_ok_iff]
    change (∃ block, part.range? (hashBlockSize part)
      (hashBlockSize part * 2) = some block ∧ _) ↔ _
    rw [show hashBlockSize part * 2 =
      hashBlockSize part + hashBlockSize part by omega]
    simp only [Bytes.range?_eq_some_iff, and_assoc, exists_eq_left',
      exists_and_left, saltEnd, Nat.add_sub_cancel_left]
    simp [show 88 + Bytes.toNatLE (part.slice 80 2) ≤ part.length from
      Nat.le_of_not_lt hsalt]

theorem roothash_ok_iff :
    roothashFromVerityPartition hash part = .ok root ↔
      4096 ≤ part.length ∧ part.slice 0 8 = verityMagic ∧
        Bytes.toNatLE (part.slice 8 4) = 1 ∧
        superblockRoothash hash part = .ok root := by
  unfold roothashFromVerityPartition
  by_cases hmagic : part.length < 4096 ∨ part.slice 0 8 ≠ verityMagic
  · rw [if_pos hmagic]
    constructor
    · intro hok
      cases hok
    · rintro ⟨hlength, hsame, -⟩
      rcases hmagic with hshort | hdiffer
      · omega
      · exact absurd hsame hdiffer
  · rw [if_neg hmagic]
    rw [not_or, not_lt, not_not] at hmagic
    by_cases hversion : Bytes.toNatLE (part.slice 8 4) = 1
    · simp [hmagic, hversion]
    · simp [hversion]

/-- When a partition has a root hash. -/
theorem exists_roothash_iff :
    (∃ root, roothashFromVerityPartition hash part = .ok root) ↔
      HeaderAccepted part ∧ Holds part := by
  constructor
  · rintro ⟨root, hroot⟩
    obtain ⟨hlength, hmagic, hversion, hblock⟩ := roothash_ok_iff.mp hroot
    obtain ⟨algo, halgo, hsalt, hfits, hdigest⟩ :=
      superblockRoothash_ok_iff.mp hblock
    have hname := exists_digestWithSalt_iff.mp ⟨root, hdigest⟩
    refine ⟨⟨hmagic, hversion, ?_⟩, hlength, hsalt, hfits⟩
    rw [halgo]
    simpa using hname
  · rintro ⟨⟨hmagic, hversion, hname⟩, hlength, hsalt, hfits⟩
    have halgo : ∃ algo, algorithmField part = some algo ∧
        (algo = "sha256" ∨ algo = "sha512") := by
      rcases hname with hsha256 | hsha512
      · exact ⟨_, hsha256, Or.inl rfl⟩
      · exact ⟨_, hsha512, Or.inr rfl⟩
    obtain ⟨algo, hfield, hknown⟩ := halgo
    obtain ⟨root, hdigest⟩ := (@exists_digestWithSalt_iff hash algo
      (part.slice 88 (saltEnd part - 88))
      (part.slice (hashBlockSize part) (hashBlockSize part))).mpr hknown
    exact ⟨root, roothash_ok_iff.mpr ⟨hlength, hmagic, hversion,
      superblockRoothash_ok_iff.mpr ⟨algo, hfield, hsalt, hfits, hdigest⟩⟩⟩

end Outcomes

section Prefixes

variable {hash : VerityHash} {front back : Bytes}

theorem algorithmField_append (hlength : 4096 ≤ front.length) :
    algorithmField (front ++ back) = algorithmField front := by
  unfold algorithmField
  rw [Bytes.slice_append_left _ _ (by omega)]

theorem hashBlockSize_append (hlength : 4096 ≤ front.length) :
    hashBlockSize (front ++ back) = hashBlockSize front := by
  unfold hashBlockSize
  rw [Bytes.slice_append_left _ _ (by omega)]

theorem saltEnd_append (hlength : 4096 ≤ front.length) :
    saltEnd (front ++ back) = saltEnd front := by
  unfold saltEnd
  rw [Bytes.slice_append_left _ _ (by omega)]

theorem headerAccepted_append (hlength : 4096 ≤ front.length) :
    HeaderAccepted (front ++ back) ↔ HeaderAccepted front := by
  constructor
  · rintro ⟨hmagic, hversion, halgorithm⟩
    rw [Bytes.slice_append_left _ _ (by omega)] at hmagic hversion
    rw [algorithmField_append hlength] at halgorithm
    exact ⟨hmagic, hversion, halgorithm⟩
  · rintro ⟨hmagic, hversion, halgorithm⟩
    constructor
    · rwa [Bytes.slice_append_left _ _ (by omega)]
    · rwa [Bytes.slice_append_left _ _ (by omega)]
    · rwa [algorithmField_append hlength]

/-- What follows the salt and the hash block is not looked at. -/
theorem roothash_append (hholds : Holds front) {root : String} :
    roothashFromVerityPartition hash (front ++ back) = .ok root ↔
      roothashFromVerityPartition hash front = .ok root := by
  obtain ⟨hlength, hsalt, hblock⟩ := hholds
  have hsaltSlice : (front ++ back).slice 88 (saltEnd front - 88) =
      front.slice 88 (saltEnd front - 88) := by
    apply Bytes.slice_append_left
    unfold saltEnd at hsalt ⊢
    omega
  have hblockSlice : (front ++ back).slice (hashBlockSize front)
      (hashBlockSize front) =
        front.slice (hashBlockSize front) (hashBlockSize front) := by
    apply Bytes.slice_append_left
    omega
  rw [roothash_ok_iff, roothash_ok_iff, superblockRoothash_ok_iff,
    superblockRoothash_ok_iff, algorithmField_append hlength,
    saltEnd_append hlength, hashBlockSize_append hlength, hsaltSlice,
    hblockSlice, Bytes.slice_append_left _ _ (by omega),
    Bytes.slice_append_left _ _ (by omega), List.length_append]
  have hwhole : 4096 ≤ front.length + back.length ∧
      saltEnd front ≤ front.length + back.length ∧
      hashBlockSize front * 2 ≤ front.length + back.length := by
    omega
  simp only [hlength, hsalt, hblock, hwhole, true_and]

end Prefixes

end Superblock

section FastReader

/-- How far the reader goes: two hash blocks, and the superblock at least. -/
def readLength (image : Bytes) (start : Nat) : Nat :=
  max 4096 (hashBlockSize (image.slice start 4096) * 2)

/-- Both succeed with one hash, or both fail. -/
def SameOutcome (left right : Except String String) : Prop :=
  ∀ root, left = .ok root ↔ right = .ok root

/-- Of a partition with an acceptable superblock, what is read lies inside
it whenever the salt is read with it, and the salt is read with it whenever
the partition holds both. -/
structure ReadsInside (image : Bytes) (start len : Nat) : Prop where
  inside : saltEnd (image.slice start 4096) ≤ readLength image start →
    readLength image start ≤ len
  salt : readLength image start ≤ len →
    saltEnd (image.slice start 4096) ≤ len →
    saltEnd (image.slice start 4096) ≤ readLength image start

variable {hash : VerityHash} {image : Bytes} {start len : Nat}

/-- A slice of the image starts with the superblock there. -/
theorem slice_eq_superblock_append {count : Nat} (hcount : 4096 ≤ count) :
    image.slice start count =
      image.slice start 4096 ++ image.slice (start + 4096) (count - 4096) := by
  rw [← Bytes.slice_add, Nat.add_sub_cancel' hcount]

theorem fields_slice {count : Nat} (hcount : 4096 ≤ count)
    (hinside : start + 4096 ≤ image.length) :
    hashBlockSize (image.slice start count) =
        hashBlockSize (image.slice start 4096) ∧
      saltEnd (image.slice start count) =
        saltEnd (image.slice start 4096) ∧
      (HeaderAccepted (image.slice start count) ↔
        HeaderAccepted (image.slice start 4096)) := by
  have hlength := Bytes.length_slice hinside
  rw [slice_eq_superblock_append hcount]
  exact ⟨hashBlockSize_append hlength.ge, saltEnd_append hlength.ge,
    headerAccepted_append hlength.ge⟩

/-- The reader has the root hash of the part that it reads. -/
theorem imageRoothash_ok_iff {root : String}
    (hfind : findVerityPartition
      (image.slice 0 (min image.length headBytes)) = .ok (start, len)) :
    imageRoothash hash image = .ok root ↔
      start + readLength image start ≤ image.length ∧
        roothashFromVerityPartition hash
          (image.slice start (readLength image start)) = .ok root := by
  have hhead : readExactAt image "reading GPT header from disk image" 0
      (min image.length headBytes) =
        .ok (image.slice 0 (min image.length headBytes)) := by
    unfold readExactAt
    rw [okOr_eq_ok_iff, Bytes.range?_eq_some_iff]
    exact ⟨by omega, rfl⟩
  have hblock : ∀ superblock, image.slice start 4096 = superblock →
      Bytes.toNatLE (superblock.slice 68 4) =
        hashBlockSize (image.slice start 4096) := by
    rintro superblock rfl
    rfl
  unfold imageRoothash
  rw [hhead, ok_bind, hfind, ok_bind, bind_eq_ok_iff]
  simp only [bind_eq_ok_iff, readExactAt, readHashBlock, okOr_eq_ok_iff,
    Bytes.range?_eq_some_iff]
  unfold readLength
  constructor
  · rintro ⟨superblock, ⟨hinside, rfl⟩, part, hpart, hroot⟩
    rw [hblock _ rfl] at hpart
    have hlength := Bytes.length_slice hinside
    by_cases hneeded : (image.slice start 4096).length <
        hashBlockSize (image.slice start 4096) * 2
    · rw [if_pos hneeded, okOr_eq_ok_iff, Bytes.range?_eq_some_iff] at hpart
      obtain ⟨hfits, rfl⟩ := hpart
      rw [max_eq_right (by omega)]
      exact ⟨hfits, hroot⟩
    · rw [if_neg hneeded] at hpart
      cases hpart
      rw [max_eq_left (by omega)]
      exact ⟨hinside, hroot⟩
  · rintro ⟨hfits, hroot⟩
    have hinside : start + 4096 ≤ image.length := by omega
    have hlength := Bytes.length_slice hinside
    refine ⟨_, ⟨hinside, rfl⟩, _, ?_, hroot⟩
    rw [hblock _ rfl]
    by_cases hneeded : (image.slice start 4096).length <
        hashBlockSize (image.slice start 4096) * 2
    · rw [if_pos hneeded, okOr_eq_ok_iff, Bytes.range?_eq_some_iff,
        max_eq_right (by omega)]
      exact ⟨by omega, rfl⟩
    · rw [if_neg hneeded, max_eq_left (by omega)]

/-- When the reader has a root hash. -/
theorem exists_imageRoothash_iff
    (hfind : findVerityPartition
      (image.slice 0 (min image.length headBytes)) = .ok (start, len)) :
    (∃ root, imageRoothash hash image = .ok root) ↔
      start + readLength image start ≤ image.length ∧
        HeaderAccepted (image.slice start 4096) ∧
        saltEnd (image.slice start 4096) ≤ readLength image start := by
  simp only [imageRoothash_ok_iff hfind, exists_and_left, exists_roothash_iff]
  apply and_congr_right
  intro hfits
  have hread : 4096 ≤ readLength image start := le_max_left _ _
  obtain ⟨hblock, hsalt, hheader⟩ := fields_slice hread
    (show start + 4096 ≤ image.length by omega)
  have hlength := Bytes.length_slice hfits
  rw [hheader]
  apply and_congr_right
  intro _
  constructor
  · rintro ⟨-, hholds, -⟩
    omega
  · intro hsaltRead
    refine ⟨by omega, by omega, ?_⟩
    have hneeded : hashBlockSize (image.slice start 4096) * 2 ≤
        readLength image start := le_max_right _ _
    omega

/-- When the declared partition has one. -/
theorem exists_declaredRoothash_iff (hinside : start + len ≤ image.length) :
    (∃ root, roothashFromVerityPartition hash (image.slice start len) =
        .ok root) ↔
      readLength image start ≤ len ∧
        HeaderAccepted (image.slice start 4096) ∧
        saltEnd (image.slice start 4096) ≤ len := by
  rw [exists_roothash_iff]
  have hlength := Bytes.length_slice hinside
  unfold readLength
  constructor
  · rintro ⟨hheader, hsuperblock, hsaltFits, hblockFits⟩
    obtain ⟨hblock, hsalt, hsame⟩ := fields_slice
      (show 4096 ≤ len by omega) (show start + 4096 ≤ image.length by omega)
    exact ⟨by omega, hsame.mp hheader, by omega⟩
  · rintro ⟨hread, hheader, hsaltFits⟩
    obtain ⟨hblock, hsalt, hsame⟩ := fields_slice
      (show 4096 ≤ len by omega) (show start + 4096 ≤ image.length by omega)
    exact ⟨hsame.mpr hheader, by omega, by omega, by omega⟩

/-- Where both have a root hash, it is one. -/
theorem imageRoothash_eq_declared
    (hfind : findVerityPartition
      (image.slice 0 (min image.length headBytes)) = .ok (start, len))
    (hread : readLength image start ≤ len)
    (hinside : start + len ≤ image.length)
    (hsalt : saltEnd (image.slice start 4096) ≤ readLength image start) :
    SameOutcome (imageRoothash hash image)
      (roothashFromVerityPartition hash (image.slice start len)) := by
  intro root
  have hsuperblock : 4096 ≤ readLength image start := le_max_left _ _
  have hneeded : hashBlockSize (image.slice start 4096) * 2 ≤
      readLength image start := le_max_right _ _
  obtain ⟨hblock, hsaltEnd, -⟩ := fields_slice hsuperblock
    (show start + 4096 ≤ image.length by omega)
  have hlength := Bytes.length_slice
    (show start + readLength image start ≤ image.length by omega)
  have hsplit : image.slice start len =
      image.slice start (readLength image start) ++
        image.slice (start + readLength image start)
          (len - readLength image start) := by
    rw [← Bytes.slice_add, Nat.add_sub_cancel' hread]
  have hholds : Holds (image.slice start (readLength image start)) :=
    ⟨by omega, by omega, by omega⟩
  rw [imageRoothash_ok_iff hfind, hsplit, roothash_append hholds]
  exact and_iff_right (by omega)

theorem SameOutcome.readsInside
    (hsame : SameOutcome (imageRoothash hash image)
      (roothashFromVerityPartition hash (image.slice start len)))
    (hfind : findVerityPartition
      (image.slice 0 (min image.length headBytes)) = .ok (start, len))
    (hinside : start + len ≤ image.length)
    (hheader : HeaderAccepted (image.slice start 4096))
    (hreach : start + readLength image start ≤ image.length) :
    ReadsInside image start len := by
  have hboth := exists_congr hsame
  rw [exists_imageRoothash_iff hfind,
    exists_declaredRoothash_iff hinside] at hboth
  constructor
  · intro hsalt
    exact (hboth.mp ⟨hreach, hheader, hsalt⟩).1
  · intro hread hsalt
    exact (hboth.mpr ⟨hread, hheader, hsalt⟩).2.2

/-- The reader agrees with the declared partition exactly when what it reads
is what the partition says. -/
theorem imageRoothash_agrees_iff
    (hfind : findVerityPartition
      (image.slice 0 (min image.length headBytes)) = .ok (start, len))
    (hinside : start + len ≤ image.length) :
    SameOutcome (imageRoothash hash image)
        (roothashFromVerityPartition hash (image.slice start len)) ↔
      (HeaderAccepted (image.slice start 4096) →
        start + readLength image start ≤ image.length →
          ReadsInside image start len) := by
  constructor
  · intro hsame hheader hreach
    exact hsame.readsInside hfind hinside hheader hreach
  · intro hcondition
    by_cases hfast : ∃ root, imageRoothash hash image = .ok root
    · obtain ⟨hreach, hheader, hsalt⟩ :=
        (exists_imageRoothash_iff hfind).mp hfast
      have hread := (hcondition hheader hreach).inside hsalt
      exact imageRoothash_eq_declared hfind hread hinside hsalt
    · by_cases hplain : ∃ root, roothashFromVerityPartition hash
          (image.slice start len) = .ok root
      · obtain ⟨hread, hheader, hsalt⟩ :=
          (exists_declaredRoothash_iff hinside).mp hplain
        have hreads := hcondition hheader (by omega)
        exact imageRoothash_eq_declared hfind hread hinside
          (hreads.salt hread hsalt)
      · intro root
        exact iff_of_false (fun hok => hfast ⟨root, hok⟩)
          fun hok => hplain ⟨root, hok⟩

end FastReader

section Demo

/-- A disk whose verity partition starts at block 3. -/
def demoDisk (lastLba blockSize saltSize : Nat) : Bytes :=
  Bytes.zeroPad 512 [] ++
  Bytes.zeroPad 512 (Bytes.zeroPad 72 gptMagic ++ Bytes.ofNatLE 8 2 ++
    Bytes.ofNatLE 4 1 ++ Bytes.ofNatLE 4 128) ++
  Bytes.zeroPad 512 (Bytes.zeroPad 32 verityTypeGuid ++ Bytes.ofNatLE 8 3 ++
    Bytes.ofNatLE 8 lastLba) ++
  Bytes.zeroPad 8192 (verityMagic ++ Bytes.zeroPad 24 (Bytes.ofNatLE 4 1) ++
    Bytes.zeroPad 36 [0x73, 0x68, 0x61, 0x32, 0x35, 0x36] ++
    Bytes.zeroPad 12 (Bytes.ofNatLE 4 blockSize) ++
    Bytes.ofNatLE 2 saltSize)

/-- A partition that lies in the image, and what it declares. -/
structure Declares (image : Bytes) (start len : Nat) : Prop where
  find : findVerityPartition
    (image.slice 0 (min image.length headBytes)) = .ok (start, len)
  inside : start + len ≤ image.length

theorem imageRoothash_agrees_demo :
    Declares (demoDisk 18 4096 32) 1536 8192 ∧ ∀ hash : VerityHash,
      SameOutcome (imageRoothash hash (demoDisk 18 4096 32))
        (roothashFromVerityPartition hash
          ((demoDisk 18 4096 32).slice 1536 8192)) := by
  have hdisk : Declares (demoDisk 18 4096 32) 1536 8192 :=
    ⟨by decide +kernel, by decide +kernel⟩
  refine ⟨hdisk, fun hash => ?_⟩
  apply (imageRoothash_agrees_iff hdisk.find hdisk.inside).mpr
  intro _ _
  constructor
  · intro _
    decide +kernel
  · intro _ _
    decide +kernel

/-- A partition of one block is read past its end, and a salt that the
partition holds is not read. -/
theorem imageRoothash_disagrees :
    (Declares (demoDisk 3 2048 0) 1536 512 ∧ ∀ hash : VerityHash,
      (∃ root, imageRoothash hash (demoDisk 3 2048 0) = .ok root) ∧
      ¬ ∃ root, roothashFromVerityPartition hash
        ((demoDisk 3 2048 0).slice 1536 512) = .ok root) ∧
    Declares (demoDisk 18 512 5000) 1536 8192 ∧ ∀ hash : VerityHash,
      (¬ ∃ root, imageRoothash hash (demoDisk 18 512 5000) = .ok root) ∧
      ∃ root, roothashFromVerityPartition hash
        ((demoDisk 18 512 5000).slice 1536 8192) = .ok root := by
  have hshort : Declares (demoDisk 3 2048 0) 1536 512 :=
    ⟨by decide +kernel, by decide +kernel⟩
  have hshortHeader : HeaderAccepted ((demoDisk 3 2048 0).slice 1536 4096) :=
    ⟨by decide +kernel, by decide +kernel, by decide +kernel⟩
  have hsalted : Declares (demoDisk 18 512 5000) 1536 8192 :=
    ⟨by decide +kernel, by decide +kernel⟩
  have hsaltedHeader :
      HeaderAccepted ((demoDisk 18 512 5000).slice 1536 4096) :=
    ⟨by decide +kernel, by decide +kernel, by decide +kernel⟩
  refine ⟨⟨hshort, fun hash => ⟨?_, ?_⟩⟩, hsalted, fun hash => ⟨?_, ?_⟩⟩
  · rw [exists_imageRoothash_iff hshort.find]
    exact ⟨by decide +kernel, hshortHeader, by decide +kernel⟩
  · rw [exists_declaredRoothash_iff hshort.inside]
    intro hread
    exact absurd hread.1 (by decide +kernel)
  · rw [exists_imageRoothash_iff hsalted.find]
    intro hread
    exact absurd hread.2.2 (by decide +kernel)
  · rw [exists_declaredRoothash_iff hsalted.inside]
    exact ⟨by decide +kernel, hsaltedHeader, by decide +kernel⟩

end Demo

end Verify

end Kettle
