import DslG624t.Chksum.Bitwise

/-!
# Tagging a file and verifying it

`main` of the checksum tool.
-/

namespace DslG624t.Chksum

open CString List Option

inductive Report
  | noSum
  | added (sum : BitVec 32)
  | addFailed (sum : BitVec 32)
  | validated (sum res : BitVec 32)
  | invalid (sum res : BitVec 32)
  deriving DecidableEq

/-- One run of the tool on a file that opens. -/
def main (e : Endian) (d : Disk) (stack content : Bytes) : Option (Report × Bytes) :=
  let (isTagged,fp) := csIsTagged e d stack ⟨content,0⟩
  match isTagged with
  | false =>
    match csCalcSum d false fp with
    | (.fault,_) => none
    | (.error,fp) => some (.noSum,fp.bytes)
    | (.sum sum,fp) =>
      let (ok,fp) := csSetSum e d sum false fp
      some (if ok then .added sum else .addFailed sum,fp.bytes)
  | true =>
    match csCalcSum d true fp with
    | (.fault,_) => none
    | (.error,fp) => some (.noSum,fp.bytes)
    | (.sum sum,fp) =>
      let (res,fp) := csGetSum e d 0 fp
      some (if sum ≠ res then .invalid sum res else .validated sum res,fp.bytes)

def tagOf (e : Endian) (sum : BitVec 32) : Bytes := e.encode magicNumber ++ e.encode sum.toNat

variable {fp : File} {n : ℕ} {res sum : BitVec 32}

@[simp]
lemma length_tagOf (e : Endian) (sum : BitVec 32) : (tagOf e sum).length = 8 := by
  simp [tagOf]

structure Disk.Works (d : Disk) (n : ℕ) : Prop where
  readable : n+8 ≤ d.readable
  writable : n+8 ≤ d.writable

/-- A run tags the file, the next one accepts it, and rejects other contents with that tag. -/
def TagVerify (e : Endian) (d : Disk) (stack content : Bytes) : Prop :=
  ∃ sum, main e d stack content = some (.added sum,content ++ tagOf e sum) ∧
    main e d stack (content ++ tagOf e sum) =
      some (.validated sum sum,content ++ tagOf e sum) ∧
    ∀ content', content'.length = content.length →
      (csCalcSum d false ⟨content',0⟩).1 ≠ .sum sum →
      ∃ sum', main e d stack (content' ++ tagOf e sum) =
        some (.invalid sum' sum,content' ++ tagOf e sum)

variable {e : Endian} {d : Disk} {stack content : Bytes}

lemma fread_eq (hread : fp.bytes.length ≤ d.readable) {m n : ℕ}
    (hm : fp.bytes.length = fp.pos+m) (hn : n ≤ m) :
    fp.fread d n = ((fp.bytes.drop fp.pos).take n,⟨fp.bytes,fp.pos+n⟩) := by
  rw [File.fread,take_of_length_le hread]
  have hlen : ((fp.bytes.drop fp.pos).take n).length = n := by
    rw [length_take,length_drop]
    omega
  simp only [hlen]

lemma fseekEnd_eq {m back : ℕ} (h : fp.bytes.length = m+back) :
    fp.fseekEnd back = ⟨fp.bytes,m⟩ := by
  rw [File.fseekEnd,if_neg (by omega),h,Nat.add_sub_cancel]

lemma fwrite_eq {data : Bytes} (hpos : fp.pos = fp.bytes.length)
    (hwrite : fp.pos+data.length ≤ d.writable) :
    fp.fwrite d data = (data.length,⟨fp.bytes ++ data,fp.pos+data.length⟩) := by
  rw [File.fwrite,min_eq_left (by omega),hpos]
  simp

lemma csIsTagged_eq (hn : content.length = n+8) (hread : n+8 ≤ d.readable) (pos : ℕ) :
    csIsTagged e d stack ⟨content,pos⟩ =
      (decide (e.decode (content.drop n) = magicNumber),⟨content,n+8⟩) := by
  have hlen : (content.drop n).length = 8 := by
    rw [length_drop]
    omega
  rw [csIsTagged,fseekEnd_eq hn,fread_eq (m := 8) (by simpa [hn]) hn (by omega)]
  simp only [take_of_length_le (le_of_eq hlen),overlay]
  rw [Endian.decode_append e (by omega)]

lemma csSetSum_eq (hn : content.length = n) (hd : d.Works n) (sum : BitVec 32) (pos : ℕ) :
    csSetSum e d sum false ⟨content,pos⟩ = (true,⟨content ++ tagOf e sum,n+8⟩) := by
  have hwrite := hd.writable
  rw [csSetSum,fseekEnd_eq (m := n) (by simpa using hn)]
  dsimp only
  rw [fwrite_eq hn.symm (by simp; omega)]
  simp only [Endian.length_encode]
  rw [if_neg (by decide),fwrite_eq (by simp [hn]) (by simp; omega)]
  simp [tagOf]

lemma csGetSum_eq (hn : content.length = n) (hd : d.Works n) (sum old : BitVec 32) (pos : ℕ) :
    csGetSum e d old ⟨content ++ tagOf e sum,pos⟩ = (sum,⟨content ++ tagOf e sum,n+8⟩) := by
  have hlen : (content ++ tagOf e sum).length = n+8 := by simp [hn]
  have hread := hd.readable
  have hdrop : (content ++ tagOf e sum).drop (n+4) = e.encode sum.toNat := by
    have hmagic : content.length+(e.encode magicNumber).length = n+4 := by simp [hn]
    rw [tagOf,← append_assoc,← hmagic,← length_append,drop_left]
  rw [csGetSum,fseekEnd_eq hlen,fread_eq (m := 8) (by simpa [hlen]) hlen (by omega)]
  dsimp only
  rw [fread_eq (m := 4) (by simpa [hlen]) hlen (by omega)]
  have hnil : (e.encode old.toNat).drop 4 = [] := drop_eq_nil_of_le (by simp)
  simp only [hdrop,overlay,Endian.length_encode,hnil,take_of_length_le,le_refl,add_assoc]
  rw [e.decode_encode sum.isLt]
  simp

def Untagged (e : Endian) (content : Bytes) : Prop :=
  e.decode (content.drop (content.length-8)) ≠ magicNumber

lemma main_untagged (h8 : 8 ≤ content.length) (hd : d.Works content.length)
    (h : Untagged e content) (hlen : content.length < 0x10000000000000000) :
    main e d stack content =
      some (.added (cksum content),content ++ tagOf e (cksum content)) := by
  have hread := hd.readable
  have hn : content.length = content.length-8+8 := by omega
  rw [main,csIsTagged_eq hn (by omega),decide_eq_false h]
  dsimp only
  rw [csCalcSum_eq (by simp; omega) hlen]
  simp only [kept,true_or,if_true,elim_some,csSetSum_eq rfl hd]

section

variable (hd : d.Works content.length)
include hd

lemma main_untagged_long
    (h : Untagged e content) (hlen : 0x10000000000000000 ≤ content.length) :
    main e d stack content = some (.noSum,content) := by
  have hread := hd.readable
  have hn : content.length = content.length-8+8 := by omega
  rw [main,csIsTagged_eq hn (by omega),decide_eq_false h]
  dsimp only
  rw [csCalcSum_error (by simp; omega) hlen]

lemma csIsTagged_tagOf (sum : BitVec 32) :
    csIsTagged e d stack ⟨content ++ tagOf e sum,0⟩ =
      (true,⟨content ++ tagOf e sum,content.length+8⟩) := by
  rw [csIsTagged_eq (by simp) hd.readable,drop_left,tagOf,e.decode_encode (by decide)]
  rfl

def verdict (sum res : BitVec 32) : Report :=
  if sum ≠ res then .invalid sum res else .validated sum res

lemma main_tagged
    (hlen : content.length+8 < 0x10000000000000000) (sum : BitVec 32) :
    main e d stack (content ++ tagOf e sum) =
      (kept true (content ++ tagOf e sum)).map fun b =>
        (verdict (cksum b) sum,content ++ tagOf e sum) := by
  have hread := hd.readable
  rw [main,csIsTagged_tagOf hd]
  dsimp only
  rw [csCalcSum_eq (by simp; omega) (by simp; omega)]
  cases kept true (content ++ tagOf e sum) with
  | none => rfl
  | some b =>
    simp only [elim_some,csGetSum_eq rfl hd]
    rfl

lemma main_tagged_long
    (hlen : 0x10000000000000000 ≤ content.length+8) (sum : BitVec 32) :
    main e d stack (content ++ tagOf e sum) = some (.noSum,content ++ tagOf e sum) := by
  have hread := hd.readable
  rw [main,csIsTagged_tagOf hd]
  dsimp only
  rw [csCalcSum_error (by simp; omega) (by simp; omega)]

end

lemma kept_content (h : content.length % bufLen < 65528) (sum : BitVec 32) :
    kept true (content ++ tagOf e sum) = some content := by
  have hb : bufLen = 65536 := rfl
  rw [hb] at h
  simp only [kept,Bool.true_eq_false,false_or,length_append,length_tagOf,hb]
  rw [if_neg (by omega),if_neg (by omega),Nat.add_sub_cancel,take_left]

lemma kept_all (h : content.length % bufLen = 65528) (sum : BitVec 32) :
    kept true (content ++ tagOf e sum) = some (content ++ tagOf e sum) := by
  have hb : bufLen = 65536 := rfl
  rw [hb] at h
  simp only [kept,Bool.true_eq_false,false_or,length_append,length_tagOf,hb]
  rw [if_pos (by omega)]

lemma kept_none (h : 65528 < content.length % bufLen) (sum : BitVec 32) :
    kept true (content ++ tagOf e sum) = none := by
  have hb : bufLen = 65536 := rfl
  rw [hb] at h
  simp only [kept,Bool.true_eq_false,false_or,length_append,length_tagOf,hb]
  rw [if_neg (by omega),if_pos (by omega)]

/-- The second run counts the content alone, or the tag makes no difference to the sum. -/
def Accepted (e : Endian) (content : Bytes) : Prop :=
  content.length % bufLen < 65528 ∨
    content.length % bufLen = 65528 ∧ cksum (content ++ tagOf e (cksum content)) = cksum content

lemma verdict_validated (h : verdict sum res = .validated res res) : sum = res := by
  by_contra hne
  rw [verdict,if_pos hne] at h
  cases h

lemma verdict_self (sum : BitVec 32) : verdict sum sum = .validated sum sum :=
  if_neg (fun h => h rfl)

lemma verdict_ne (h : sum ≠ res) : verdict sum res = .invalid sum res :=
  if_pos h

variable (stack) in
lemma tagVerify_iff (h8 : 8 ≤ content.length) (hd : d.Works content.length)
    (h : Untagged e content) :
    TagVerify e d stack content ↔
      content.length+8 < 0x10000000000000000 ∧ Accepted e content := by
  constructor
  · rintro ⟨sum,hadd,hverify,-⟩
    have hlen : content.length < 0x10000000000000000 := by
      by_contra hc
      rw [main_untagged_long hd h (not_lt.mp hc)] at hadd
      cases hadd
    rw [main_untagged h8 hd h hlen] at hadd
    obtain rfl : cksum content = sum := by
      injection hadd with hadd
      injection (Prod.mk.inj hadd).1
    have hlen8 : content.length+8 < 0x10000000000000000 := by
      by_contra hc
      rw [main_tagged_long hd (not_lt.mp hc)] at hverify
      cases hverify
    refine ⟨hlen8,?_⟩
    rw [main_tagged hd hlen8] at hverify
    rcases lt_trichotomy (content.length % bufLen) 65528 with hlt | heq | hgt
    · exact .inl hlt
    · rw [kept_all heq] at hverify
      injection hverify with hverify
      exact .inr ⟨heq,verdict_validated (Prod.mk.inj hverify).1⟩
    · rw [kept_none hgt] at hverify
      cases hverify
  rintro ⟨hlen8,hacc⟩
  refine ⟨cksum content,main_untagged h8 hd h (by omega),?_,?_⟩
  · rw [main_tagged hd hlen8]
    rcases hacc with hlt | ⟨heq,hsum⟩
    · rw [kept_content hlt,map_some,verdict_self]
    · rw [kept_all heq,map_some,hsum,verdict_self]
  intro content' hlen' hne
  have hread := hd.readable
  rw [csCalcSum_eq (by simp; omega) (by simp; omega)] at hne
  have hsum : cksum content' ≠ cksum content := fun hc => hne (congrArg Calc.sum hc)
  rw [← hlen'] at hd hlen8
  rw [main_tagged hd hlen8]
  rcases hacc with hlt | ⟨heq,hcoin⟩
  · rw [kept_content (by rwa [hlen']),map_some,verdict_ne hsum]
    exact ⟨_,rfl⟩
  · have hne' : cksum (content' ++ tagOf e (cksum content)) ≠ cksum content := fun hc =>
      hsum ((cksum_append_inj hlen' _).mp (hc.trans hcoin.symm))
    rw [kept_all (by rwa [hlen']),map_some,verdict_ne hne']
    exact ⟨_,rfl⟩

lemma length_lengthBytes_le {n k : ℕ} (h : n < 0x100 ^ k) : (lengthBytes n).length ≤ k := by
  induction k generalizing n with
  | zero =>
    rw [lengthBytes,if_pos (by simpa using h)]
    exact le_refl 0
  | succ k ih =>
    rw [lengthBytes]
    split
    · exact Nat.zero_le _
    · have hdiv : n / 0x100 < 0x100 ^ k := by
        rw [pow_succ] at h
        exact Nat.div_lt_of_lt_mul (by omega)
      exact Nat.succ_le_succ (ih hdiv)

lemma cksum_xor {a b : Bytes} (h : a.length = b.length) :
    cksum a ^^^ cksum b =
      Crc.feed poly (a.foldl crcStep 0 ^^^ b.foldl crcStep 0)
        (List.replicate (lengthBytes a.length).length 0) := by
  have hnot (x y : BitVec 32) : ~~~x ^^^ ~~~y = x ^^^ y := by
    ext i hi
    simp
  rw [cksum,cksum,← h,hnot]
  simp only [foldl_crcStep]
  rw [Crc.feed_xor_self,length_map]

lemma foldl_tag_xor (a b : Bytes) :
    (a ++ tagOf e (cksum a)).foldl crcStep 0 ^^^ (b ++ tagOf e (cksum b)).foldl crcStep 0 =
      Crc.feed poly (Crc.feed poly (a.foldl crcStep 0 ^^^ b.foldl crcStep 0)
        (List.replicate 4 0)) ((e.encode (cksum a ^^^ cksum b).toNat).map UInt8.toBitVec) := by
  have hmagic : ((e.encode magicNumber).map UInt8.toBitVec).length = 4 := by simp
  rw [Endian.encode_xor,← hmagic]
  simp only [tagOf,foldl_crcStep,map_append,Crc.feed_append]
  rw [← Crc.feed_xor_self,Crc.feed_xor (by simp)]

lemma tag_changes_sum (e : Endian) : ∀ k < 9, ∀ k' < 9,
    Crc.feed poly (Crc.feed poly (Crc.feed poly (crcStep 0 1) (List.replicate 4 0))
      ((e.encode (Crc.feed poly (crcStep 0 1) (List.replicate k 0)).toNat).map UInt8.toBitVec))
      (List.replicate k' 0) ≠ Crc.feed poly (crcStep 0 1) (List.replicate k 0) := by
  cases e <;> decide +kernel

lemma foldl_zeros (n : ℕ) : (List.replicate n (0 : UInt8)).foldl crcStep 0 = 0 := by
  have hstep : crcStep 0 0 = 0 := by decide
  induction n with
  | zero => rfl
  | succ n ih => rw [replicate_succ,foldl_cons,hstep,ih]

def zerosThen (n : ℕ) (b : UInt8) : Bytes := List.replicate (n+7) 0 ++ [b]

@[simp]
lemma length_zerosThen (n : ℕ) (b : UInt8) : (zerosThen n b).length = n+8 := by
  simp [zerosThen]

lemma untagged_zerosThen (n : ℕ) (b : UInt8) : Untagged e (zerosThen n b) := by
  have hdrop : (zerosThen n b).drop n = replicate 7 0 ++ [b] := by
    simp [zerosThen,drop_append]
  rw [Untagged,length_zerosThen,Nat.add_sub_cancel,hdrop,Endian.decode_append e (by decide)]
  cases e <;> decide

lemma foldl_zerosThen (n : ℕ) (b : UInt8) : (zerosThen n b).foldl crcStep 0 = crcStep 0 b := by
  rw [zerosThen,foldl_append,foldl_zeros]
  rfl

lemma not_accepted_zerosThen (hlen : n+16 < 0x10000000000000000)
    (hn : (n+8) % bufLen = 65528) :
    ¬ (Accepted e (zerosThen n 1) ∧ Accepted e (zerosThen n 0)) := by
  rintro ⟨hone,hzero⟩
  have hsum {b : UInt8} (h : Accepted e (zerosThen n b)) :
      cksum (zerosThen n b ++ tagOf e (cksum (zerosThen n b))) = cksum (zerosThen n b) := by
    rcases h with hlt | ⟨-,hsum⟩
    · rw [length_zerosThen] at hlt
      omega
    · exact hsum
  have hdiff : cksum (zerosThen n 1) ^^^ cksum (zerosThen n 0) =
      Crc.feed poly (crcStep 0 1) (replicate (lengthBytes (n+8)).length 0) := by
    rw [cksum_xor (by simp),foldl_zerosThen,foldl_zerosThen,length_zerosThen]
    rfl
  have htag := cksum_xor (a := zerosThen n 1 ++ tagOf e (cksum (zerosThen n 1)))
    (b := zerosThen n 0 ++ tagOf e (cksum (zerosThen n 0))) (by simp)
  rw [foldl_tag_xor,hsum hone,hsum hzero,hdiff,foldl_zerosThen,foldl_zerosThen] at htag
  refine tag_changes_sum e _ ?_ _ ?_ htag.symm
  · exact Nat.lt_succ_of_le (length_lengthBytes_le (by simp; omega))
  · exact Nat.lt_succ_of_le (length_lengthBytes_le (by simp; omega))

variable (stack) in
lemma csIsTagged_false_iff (h8 : 8 ≤ content.length) (hd : d.Works content.length) :
    (csIsTagged e d stack ⟨content,0⟩).1 = false ↔ Untagged e content := by
  have hn : content.length = content.length-8+8 := by omega
  have hread := hd.readable
  rw [csIsTagged_eq hn (by omega),decide_eq_false_iff_not,Untagged]

theorem tagThenVerify_iff (e : Endian) {n : ℕ} (hn : 8 ≤ n) :
    (∀ d stack content, d.Works n → content.length = n →
      (csIsTagged e d stack ⟨content,0⟩).1 = false → TagVerify e d stack content) ↔
      n % bufLen < 65528 ∧ n+8 < 0x10000000000000000 := by
  constructor
  · intro h
    obtain ⟨m,rfl⟩ : ∃ m, n = m+8 := ⟨n-8,by omega⟩
    obtain ⟨d,hworks⟩ : ∃ d : Disk, d.Works (m+8) :=
      ⟨⟨m+8+8,m+8+8⟩,le_refl _,le_refl _⟩
    have hboth (b : UInt8) :
        m+8+8 < 0x10000000000000000 ∧ Accepted e (zerosThen m b) := by
      have hlen := length_zerosThen m b
      have hu : Untagged e (zerosThen m b) := untagged_zerosThen m b
      have hverify := h _ [] _ hworks hlen
      rw [← hlen] at hworks hn ⊢
      rw [csIsTagged_false_iff [] hn hworks] at hverify
      exact (tagVerify_iff [] hn hworks hu).mp (hverify hu)
    obtain ⟨hlen,hzero⟩ := hboth 0
    refine ⟨?_,hlen⟩
    rcases hzero with hlt | ⟨heq,-⟩
    · rwa [length_zerosThen] at hlt
    · rw [length_zerosThen] at heq
      exact absurd ⟨(hboth 1).2,(hboth 0).2⟩ (not_accepted_zerosThen hlen heq)
  · rintro ⟨hmod,hlen⟩ d stack content hd rfl hu
    rw [csIsTagged_false_iff stack hn hd] at hu
    exact (tagVerify_iff stack hn hd hu).mpr ⟨hlen,.inl hmod⟩

theorem tagThenVerify_eight : TagVerify .little ⟨16,16⟩ [] (zerosThen 0 0) :=
  (tagThenVerify_iff .little (n := 8) (by decide)).mpr ⟨by decide,by decide⟩ _ _ _
    ⟨by decide,by decide⟩ rfl (by decide)

/-- With 65529 bytes, the last block of the second run has one byte, and that is of the tag. -/
theorem tagThenVerify_fails_split :
    (csIsTagged .little ⟨65537,65537⟩ [] ⟨zerosThen 65521 0,0⟩).1 = false ∧
      (∀ sum, main .little ⟨65537,65537⟩ [] (zerosThen 65521 0 ++ tagOf .little sum) = none) ∧
      ¬ TagVerify .little ⟨65537,65537⟩ [] (zerosThen 65521 0) := by
  have hlen := length_zerosThen 65521 0
  have hworks : Disk.Works ⟨65537,65537⟩ (zerosThen 65521 0).length := by
    rw [hlen]
    exact ⟨by decide,by decide⟩
  have hmain (sum : BitVec 32) :
      main .little ⟨65537,65537⟩ [] (zerosThen 65521 0 ++ tagOf .little sum) = none := by
    rw [main_tagged hworks (by rw [hlen]; decide),kept_none (by rw [hlen]; decide),map_none]
  refine ⟨?_,hmain,?_⟩
  · rw [csIsTagged_false_iff [] (by rw [hlen]; decide) hworks]
    exact untagged_zerosThen 65521 0
  · rintro ⟨sum,-,hverify,-⟩
    rw [hmain] at hverify
    cases hverify

def Verifies (e : Endian) (d : Disk) (stack file : Bytes) : Prop :=
  ∃ sum res after, main e d stack file = some (.validated sum res,after)

lemma verifies_tagOf_iff (hd : d.Works content.length) (sum : BitVec 32) :
    Verifies e d stack (content ++ tagOf e sum) ↔ content.length+8 < 0x10000000000000000 ∧
      (content.length % bufLen < 65528 ∧ cksum content = sum ∨
        content.length % bufLen = 65528 ∧ cksum (content ++ tagOf e sum) = sum) := by
  have hverdict (x : BitVec 32) :
      (∃ sum' res after, some (verdict x sum,content ++ tagOf e sum) =
        some (.validated sum' res,after)) ↔ x = sum := by
    by_cases hx : x = sum <;> simp [verdict,hx]
  by_cases hlen : content.length+8 < 0x10000000000000000
  · rw [Verifies,main_tagged hd hlen]
    rcases lt_trichotomy (content.length % bufLen) 65528 with hlt | heq | hgt
    · simp only [kept_content hlt,map_some,hverdict]
      simp [hlen,hlt,hlt.ne]
    · simp only [kept_all heq,map_some,hverdict]
      simp [hlen,heq]
    · simp [kept_none hgt,hlen]
      omega
  · rw [Verifies,main_tagged_long hd (not_lt.mp hlen)]
    simp [hlen]

lemma tag_of_verifies {file : Bytes} (hlen : file.length = n+8) (hread : n+8 ≤ d.readable)
    (h : Verifies e d stack file) : ∃ content sum, content.length = n ∧
      file = content ++ tagOf e sum := by
  obtain ⟨sum,res,after,h⟩ := h
  rw [main,csIsTagged_eq hlen hread] at h
  by_cases htag : e.decode (file.drop n) = magicNumber
  · refine ⟨file.take n,BitVec.ofNat 32 (e.decode ((file.drop n).drop 4)),by simp; omega,?_⟩
    have h8 : ((file.drop n).drop 4).length = 4 := by simp; omega
    rw [tagOf,← htag,e.encode_decode (by simp; omega),BitVec.toNat_ofNat,
      Nat.mod_eq_of_lt (e.decode_lt _),e.encode_decode h8.ge,take_of_length_le h8.le,
      take_append_drop,take_append_drop]
  · rw [decide_eq_false htag] at h
    dsimp only at h
    split at h
    · cases h
    · cases h
    · split at h <;> cases h

lemma exists_bit_ne {a b : Bytes} (h : a ≠ b) : ∃ i : ℕ, (bitsOf a)[i]? ≠ (bitsOf b)[i]? := by
  by_contra hc
  exact h (bitsOf_injective (ext_getElem? fun i => not_not.mp fun hi => hc ⟨i,hi⟩))

/-- The stored sum is further behind the content than a burst reaches. -/
lemma Burst.of_tagged {a b : Bytes} {s s' : BitVec 32} (hlen : a.length = b.length)
    (h : Burst (a ++ tagOf e s) (b ++ tagOf e s')) : Burst a b ∧ (a = b ∨ s = s') := by
  obtain ⟨p,hp⟩ := h
  have hla := length_bitsOf a
  have hlb := length_bitsOf b
  have hlm := length_bitsOf (e.encode magicNumber)
  rw [Endian.length_encode] at hlm
  have hleft (i : ℕ) (hi : (bitsOf a)[i]? ≠ (bitsOf b)[i]?) : i < 8*a.length ∧ p ≤ i ∧ i < p+32 := by
    have hlt : i < 8*a.length := by
      by_contra hc
      exact hi (by rw [getElem?_eq_none (by omega),getElem?_eq_none (by omega)])
    refine ⟨hlt,hp i ?_⟩
    rwa [bitsOf_append,bitsOf_append,getElem?_append_left (by omega),
      getElem?_append_left (by omega)]
  refine ⟨⟨p,fun i hi => (hleft i hi).2⟩,?_⟩
  by_contra hc
  obtain ⟨hab,hs⟩ := not_or.mp hc
  obtain ⟨i,hi⟩ := exists_bit_ne hab
  obtain ⟨j,hj⟩ := exists_bit_ne (e.encode_injective.ne hs)
  have hright := hp (8*a.length+(32+j)) (by
    rw [bitsOf_append,bitsOf_append,getElem?_append_right (by omega),
      getElem?_append_right (by omega),tagOf,tagOf,bitsOf_append,bitsOf_append,
      getElem?_append_right (by omega),getElem?_append_right (by omega),hla,hlb,hlm,← hlen]
    rwa [Nat.add_sub_cancel_left,Nat.add_sub_cancel_left])
  have := hleft i hi
  omega

/-- By its last four bytes a content takes any sum, with the same text behind it. -/
lemma exists_last_bytes {a : Bytes} (h : 4 ≤ a.length) (t : Bytes) (sum : BitVec 32) :
    ∃ b, b.length = a.length ∧ Burst (a ++ t) (b ++ t) ∧ cksum (b ++ t) = sum := by
  obtain ⟨p,x,rfl,hx⟩ : ∃ p x, a = p ++ x ∧ x.length = 4 :=
    ⟨_,_,(take_append_drop (a.length-4) a).symm,by simp; omega⟩
  have hinj : Function.Injective fun w : BitVec 32 =>
      cksum (p ++ Endian.big.encode w.toNat ++ t) := by
    intro w w' hw
    by_contra hne
    refine cksum_ne_of_burst (by simp) (fun heq => ?_)
      (burst_middle p t (Endian.length_encode _ _) (Endian.length_encode _ _)) hw
    exact Endian.big.encode_injective.ne hne (append_cancel_left (append_cancel_right heq))
  obtain ⟨w,hw⟩ := Finite.surjective_of_injective hinj sum
  exact ⟨_,by simp [hx],burst_middle p t hx (Endian.length_encode _ _),hw⟩

/-- The sums of a content and of a burst of it differ. The tool finds the burst in a tagged file
unless the file is a number of whole blocks: there the tag is counted as content. -/
theorem burst_iff {a : Bytes} (hd : d.Works a.length) :
    (∀ b, b.length = a.length → b ≠ a → Burst a b → csCalcBufSum b ≠ csCalcBufSum a) ∧
    ((∀ file, file.length = a.length+8 → file ≠ a ++ tagOf e (cksum a) →
      Burst (a ++ tagOf e (cksum a)) file → ¬ Verifies e d stack file) ↔
      (a.length % bufLen = 65528 → a.length+8 < 0x10000000000000000 →
        ∀ s, cksum (a ++ tagOf e s) = s ↔ s = cksum a)) := by
  constructor
  · intro b hlen hne hburst
    rw [csCalcBufSum_eq,csCalcBufSum_eq]
    exact (cksum_ne_of_burst hlen.symm hne.symm hburst).symm
  constructor
  · intro h hmod hsize s
    have hver {b : Bytes} {s : BitVec 32} (hlen : b.length = a.length)
        (hs : cksum (b ++ tagOf e s) = s) : Verifies e d stack (b ++ tagOf e s) := by
      rw [← hlen] at hd hmod hsize
      exact (verifies_tagOf_iff hd s).mpr ⟨hsize,.inr ⟨hmod,hs⟩⟩
    constructor
    · intro hs
      by_contra hne
      refine h (a ++ tagOf e s) (by simp) (fun heq => ?_) ?_ (hver rfl hs)
      · exact e.encode_injective.ne hne (append_cancel_left (append_cancel_left heq))
      · have hburst := burst_middle (a ++ e.encode magicNumber) [] (e.length_encode (cksum a).toNat)
          (e.length_encode s.toNat)
        simpa [tagOf] using hburst
    · rintro rfl
      have hlong : 4 ≤ a.length := by
        have hle := Nat.mod_le a.length bufLen
        omega
      obtain ⟨b,hlen,hburst,hs⟩ := exists_last_bytes hlong (tagOf e (cksum a)) (cksum a)
      by_contra hc
      refine h _ (by simp [hlen]) (fun heq => ?_) hburst (hver hlen hs)
      exact hc (by rwa [append_cancel_right heq] at hs)
  · intro h file hlen hne hburst hver
    obtain ⟨b,s,hb,rfl⟩ := tag_of_verifies hlen hd.readable hver
    obtain ⟨hcontent,hor⟩ := hburst.of_tagged hb.symm
    rw [← hb] at hd
    have hsame (hs : cksum a = s) (hsum : cksum a = cksum b) : False := by
      by_cases hab : a = b
      · exact hne (by rw [hs,hab])
      · exact cksum_ne_of_burst hb.symm hab hcontent hsum
    obtain ⟨hsize,⟨-,hs⟩ | ⟨hmod,hs⟩⟩ := (verifies_tagOf_iff hd s).mp hver
    · obtain rfl | hstored := hor
      · exact hsame hs rfl
      · exact hsame hstored (hstored.trans hs.symm)
    · have hfix := h (hb ▸ hmod) (hb ▸ hsize)
      obtain rfl | hstored := hor
      · exact hsame ((hfix s).mp hs).symm rfl
      · refine hsame hstored ((cksum_append_inj hb.symm (tagOf e s)).mp ?_)
        rw [hs,← hstored]
        exact (hfix _).mpr rfl

/-- Any burst in the content or the tag of a file of nine bytes. -/
theorem burst_iff_nine : (⟨17,17⟩ : Disk).Works (zerosThen 1 3).length ∧
    ∀ file : Bytes, file.length = 17 → file ≠ zerosThen 1 3 ++ tagOf .big (cksum (zerosThen 1 3)) →
      Burst (zerosThen 1 3 ++ tagOf .big (cksum (zerosThen 1 3))) file →
      ¬ Verifies .big ⟨17,17⟩ [] file :=
  ⟨⟨by decide,by decide⟩,(burst_iff (a := zerosThen 1 3) ⟨by decide,by decide⟩).2.mpr fun hmod =>
    absurd hmod (by decide)⟩

/-- 65528 zeros, and what a burst makes of the last four. -/
def burstContent : Bytes := List.replicate 65524 0 ++ [0x33,0xd8,0x2a,0x8e]

lemma cksum_zeros : cksum (List.replicate 65528 0) = 0x3778e5f8 := by
  rw [cksum,foldl_zeros,length_replicate]
  simp [lengthBytes]
  decide +kernel

theorem burst_verifies_whole_blocks :
    burstContent ≠ List.replicate 65528 0 ∧
    Burst (List.replicate 65528 0 ++ tagOf .little (cksum (List.replicate 65528 0)))
      (burstContent ++ tagOf .little (cksum (List.replicate 65528 0))) ∧
    Verifies .little ⟨65536,65536⟩ []
      (burstContent ++ tagOf .little (cksum (List.replicate 65528 0))) := by
  have hsplit : replicate 65528 (0 : UInt8) = replicate 65524 0 ++ replicate 4 0 := by
    rw [replicate_append_replicate]
  have hlen : burstContent.length = 65528 := by
    rw [burstContent,length_append,length_replicate]
    rfl
  refine ⟨fun heq => ?_,?_,(verifies_tagOf_iff ⟨by rw [hlen],by rw [hlen]⟩ _).mpr
    ⟨by rw [hlen]; decide,.inr ⟨by rw [hlen]; decide,?_⟩⟩⟩
  · rw [hsplit] at heq
    exact absurd (append_cancel_left heq) (by decide)
  · rw [hsplit]
    exact burst_middle _ _ rfl rfl
  · rw [cksum_zeros,cksum,burstContent,foldl_append,foldl_append,foldl_zeros,length_append,
      length_append,length_replicate]
    simp [lengthBytes]
    decide +kernel

end DslG624t.Chksum
