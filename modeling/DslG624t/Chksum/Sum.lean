import DslG624t.Lib.Crc
import DslG624t.Lib.CString
import DslG624t.Lib.Word

/-!
# The checksum of a file

`cksum.c` of the tool that tags an image: an `unsigned long` has 32 bits. The sum is computed over
blocks of 64 KiB, and the tag is left out of the last block if that one is short.
-/

namespace DslG624t.Chksum

open BitVec CString List

def bufLen : ℕ := 65536

def magicNumber : ℕ := 0xC453DE23

def crctab : List (BitVec 32) :=
  [0x0,0x04C11DB7,0x09823B6E,0x0D4326D9,0x130476DC,0x17C56B6B,
   0x1A864DB2,0x1E475005,0x2608EDB8,0x22C9F00F,0x2F8AD6D6,
   0x2B4BCB61,0x350C9B64,0x31CD86D3,0x3C8EA00A,0x384FBDBD,
   0x4C11DB70,0x48D0C6C7,0x4593E01E,0x4152FDA9,0x5F15ADAC,
   0x5BD4B01B,0x569796C2,0x52568B75,0x6A1936C8,0x6ED82B7F,
   0x639B0DA6,0x675A1011,0x791D4014,0x7DDC5DA3,0x709F7B7A,
   0x745E66CD,0x9823B6E0,0x9CE2AB57,0x91A18D8E,0x95609039,
   0x8B27C03C,0x8FE6DD8B,0x82A5FB52,0x8664E6E5,0xBE2B5B58,
   0xBAEA46EF,0xB7A96036,0xB3687D81,0xAD2F2D84,0xA9EE3033,
   0xA4AD16EA,0xA06C0B5D,0xD4326D90,0xD0F37027,0xDDB056FE,
   0xD9714B49,0xC7361B4C,0xC3F706FB,0xCEB42022,0xCA753D95,
   0xF23A8028,0xF6FB9D9F,0xFBB8BB46,0xFF79A6F1,0xE13EF6F4,
   0xE5FFEB43,0xE8BCCD9A,0xEC7DD02D,0x34867077,0x30476DC0,
   0x3D044B19,0x39C556AE,0x278206AB,0x23431B1C,0x2E003DC5,
   0x2AC12072,0x128E9DCF,0x164F8078,0x1B0CA6A1,0x1FCDBB16,
   0x018AEB13,0x054BF6A4,0x0808D07D,0x0CC9CDCA,0x7897AB07,
   0x7C56B6B0,0x71159069,0x75D48DDE,0x6B93DDDB,0x6F52C06C,
   0x6211E6B5,0x66D0FB02,0x5E9F46BF,0x5A5E5B08,0x571D7DD1,
   0x53DC6066,0x4D9B3063,0x495A2DD4,0x44190B0D,0x40D816BA,
   0xACA5C697,0xA864DB20,0xA527FDF9,0xA1E6E04E,0xBFA1B04B,
   0xBB60ADFC,0xB6238B25,0xB2E29692,0x8AAD2B2F,0x8E6C3698,
   0x832F1041,0x87EE0DF6,0x99A95DF3,0x9D684044,0x902B669D,
   0x94EA7B2A,0xE0B41DE7,0xE4750050,0xE9362689,0xEDF73B3E,
   0xF3B06B3B,0xF771768C,0xFA325055,0xFEF34DE2,0xC6BCF05F,
   0xC27DEDE8,0xCF3ECB31,0xCBFFD686,0xD5B88683,0xD1799B34,
   0xDC3ABDED,0xD8FBA05A,0x690CE0EE,0x6DCDFD59,0x608EDB80,
   0x644FC637,0x7A089632,0x7EC98B85,0x738AAD5C,0x774BB0EB,
   0x4F040D56,0x4BC510E1,0x46863638,0x42472B8F,0x5C007B8A,
   0x58C1663D,0x558240E4,0x51435D53,0x251D3B9E,0x21DC2629,
   0x2C9F00F0,0x285E1D47,0x36194D42,0x32D850F5,0x3F9B762C,
   0x3B5A6B9B,0x0315D626,0x07D4CB91,0x0A97ED48,0x0E56F0FF,
   0x1011A0FA,0x14D0BD4D,0x19939B94,0x1D528623,0xF12F560E,
   0xF5EE4BB9,0xF8AD6D60,0xFC6C70D7,0xE22B20D2,0xE6EA3D65,
   0xEBA91BBC,0xEF68060B,0xD727BBB6,0xD3E6A601,0xDEA580D8,
   0xDA649D6F,0xC423CD6A,0xC0E2D0DD,0xCDA1F604,0xC960EBB3,
   0xBD3E8D7E,0xB9FF90C9,0xB4BCB610,0xB07DABA7,0xAE3AFBA2,
   0xAAFBE615,0xA7B8C0CC,0xA379DD7B,0x9B3660C6,0x9FF77D71,
   0x92B45BA8,0x9675461F,0x8832161A,0x8CF30BAD,0x81B02D74,
   0x857130C3,0x5D8A9099,0x594B8D2E,0x5408ABF7,0x50C9B640,
   0x4E8EE645,0x4A4FFBF2,0x470CDD2B,0x43CDC09C,0x7B827D21,
   0x7F436096,0x7200464F,0x76C15BF8,0x68860BFD,0x6C47164A,
   0x61043093,0x65C52D24,0x119B4BE9,0x155A565E,0x18197087,
   0x1CD86D30,0x029F3D35,0x065E2082,0x0B1D065B,0x0FDC1BEC,
   0x3793A651,0x3352BBE6,0x3E119D3F,0x3AD08088,0x2497D08D,
   0x2056CD3A,0x2D15EBE3,0x29D4F654,0xC5A92679,0xC1683BCE,
   0xCC2B1D17,0xC8EA00A0,0xD6AD50A5,0xD26C4D12,0xDF2F6BCB,
   0xDBEE767C,0xE3A1CBC1,0xE760D676,0xEA23F0AF,0xEEE2ED18,
   0xF0A5BD1D,0xF464A0AA,0xF9278673,0xFDE69BC4,0x89B8FD09,
   0x8D79E0BE,0x803AC667,0x84FBDBD0,0x9ABC8BD5,0x9E7D9662,
   0x933EB0BB,0x97FFAD0C,0xAFB010B1,0xAB710D06,0xA6322BDF,
   0xA2F33668,0xBCB4666D,0xB8757BDA,0xB5365D03,0xB1F740B4]

def crcStep (crc : BitVec 32) (b : UInt8) : BitVec 32 :=
  crc <<< 8 ^^^ crctab.getD ((crc >>> 24 ^^^ b.toBitVec.setWidth 32) &&& 0xFF#32).toNat 0

structure File where
  bytes : Bytes
  pos : ℕ

/-- How many bytes of the file can be read, and how far it can be written. -/
structure Disk where
  readable : ℕ
  writable : ℕ

namespace File

def fseekEnd (back : ℕ) (fp : File) : File :=
  if fp.bytes.length < back then fp else ⟨fp.bytes,fp.bytes.length-back⟩

def fread (d : Disk) (n : ℕ) (fp : File) : Bytes × File :=
  let got := ((fp.bytes.take d.readable).drop fp.pos).take n
  (got,⟨fp.bytes,fp.pos+got.length⟩)

def fwrite (d : Disk) (data : Bytes) (fp : File) : ℕ × File :=
  let n := min data.length (d.writable-fp.pos)
  (n,⟨fp.bytes.take fp.pos ++ data.take n ++ fp.bytes.drop (fp.pos+n),fp.pos+n⟩)

end File

def overlay (got old : Bytes) : Bytes := got ++ old.drop got.length

def csIsTagged (e : Endian) (d : Disk) (stack : Bytes) (fp : File) : Bool × File :=
  let (got,fp) := (fp.fseekEnd 8).fread d 8
  (e.decode (overlay got stack) = magicNumber,fp)

def stripped (tagged : Bool) (bytesRead : ℕ) : ℕ :=
  if bytesRead ≠ bufLen ∧ tagged = true then (bytesRead+0x100000000-8) % 0x100000000
  else bytesRead

inductive Loop
  | fault
  | error
  | done (length : ℕ) (crc : BitVec 32)

/-- The loop over the blocks, `length` being a `uintmax_t`. -/
def calcLoop (tagged : Bool) (length : ℕ) (crc : BitVec 32) (rest : Bytes) : Loop :=
  if rest = [] then .done length crc
  else
    let buf := rest.take bufLen
    if (length+buf.length) % 0x10000000000000000 < length then .error
    else
      let bytesRead := stripped tagged buf.length
      -- the inner loop would read behind the buffer
      if bufLen < bytesRead then .fault
      else
        calcLoop tagged ((length+bytesRead) % 0x10000000000000000)
          ((buf.take bytesRead).foldl crcStep crc) (rest.drop bufLen)
termination_by rest.length
decreasing_by
  rename_i hne _ _
  have := length_pos_of_ne_nil hne
  simp only [length_drop,bufLen]
  omega

def lengthBytes (length : ℕ) : Bytes :=
  if length = 0 then [] else UInt8.ofNat length :: lengthBytes (length / 0x100)

inductive Calc
  | fault
  | error
  | sum (crc : BitVec 32)

def calcEnd (failed : Bool) : Loop → Calc
  | .fault => .fault
  | .error => .error
  | .done length crc =>
    if failed then .error else .sum (~~~ (lengthBytes length).foldl crcStep crc)

def csCalcSum (d : Disk) (tagged : Bool) (fp : File) : Calc × File :=
  let rest := fp.bytes.take d.readable
  (calcEnd (rest.length < fp.bytes.length) (calcLoop tagged 0 0 rest),⟨fp.bytes,rest.length⟩)

def bufStep (crc : BitVec 32) (b : UInt8) : BitVec 32 :=
  crc <<< 8 ^^^ crctab.getD ((crc >>> 24 ^^^ b.toBitVec.signExtend 32) &&& 0xFF#32).toNat 0

def csCalcBufSum (buf : Bytes) : BitVec 32 :=
  ~~~ (lengthBytes buf.length).foldl crcStep (buf.foldl bufStep 0)

def csSetSum (e : Endian) (d : Disk) (sum : BitVec 32) (tagged : Bool) (fp : File) : Bool × File :=
  let fp := fp.fseekEnd (if tagged then 8 else 0)
  let (n,fp) := fp.fwrite d (e.encode magicNumber)
  if n < 4 then (false,fp)
  else
    let (n,fp) := fp.fwrite d (e.encode sum.toNat)
    (4 ≤ n,fp)

def csGetSum (e : Endian) (d : Disk) (sum : BitVec 32) (fp : File) : BitVec 32 × File :=
  let (_,fp) := (fp.fseekEnd 8).fread d 4
  let (got,fp) := fp.fread d 4
  (e.decode (overlay got (e.encode sum.toNat)),fp)

def poly : BitVec 32 := 0x04C11DB7

variable {d : Disk} {fp : File} {a b : Bytes}

lemma crctab_eq : crctab = (List.range 256).map fun i =>
    (Crc.shift poly)^[8] (Crc.place 32 (BitVec.ofNat 8 i)) := by
  decide +kernel

lemma crctab_getD (i : BitVec 8) :
    crctab.getD i.toNat 0 = (Crc.shift poly)^[8] (Crc.place 32 i) := by
  rw [crctab_eq,getD_eq_getElem?_getD,List.getElem?_map,List.getElem?_range i.isLt,
    Option.map_some,Option.getD_some,ofNat_toNat,setWidth_eq]

lemma toNat_and_byte (x : BitVec 32) : (x &&& 0xFF#32).toNat = (x.setWidth 8).toNat := by
  rw [toNat_setWidth,toNat_and]
  exact Nat.and_two_pow_sub_one_eq_mod _ 8

lemma index_eq (crc : BitVec 32) {b : BitVec 8} {x : BitVec 32} (h : x.setWidth 8 = b) :
    ((crc >>> 24 ^^^ x) &&& 0xFF#32).toNat = (Crc.top crc ^^^ b).toNat := by
  rw [toNat_and_byte,setWidth_xor,h]
  rfl

lemma crcStep_eq (crc : BitVec 32) (b : UInt8) : crcStep crc b = Crc.step poly crc b.toBitVec := by
  rw [crcStep,index_eq crc (b := b.toBitVec) (by simp),Crc.step_eq_table (by decide) crctab_getD]

lemma foldl_crcStep (crc : BitVec 32) (bytes : Bytes) :
    bytes.foldl crcStep crc = Crc.feed poly crc (bytes.map UInt8.toBitVec) := by
  rw [Crc.feed,foldl_map,funext₂ crcStep_eq]

def kept (tagged : Bool) (rest : Bytes) : Option Bytes :=
  if tagged = false ∨ rest.length % bufLen = 0 then some rest
  else if rest.length % bufLen < 8 then none
  else some (rest.take (rest.length-8))

def counted (length : ℕ) (crc : BitVec 32) (bytes : Bytes) : Loop :=
  .done (length+bytes.length) (bytes.foldl crcStep crc)

variable {tagged : Bool} {length : ℕ} {crc : BitVec 32} {rest : Bytes}

lemma calcLoop_nil : calcLoop tagged length crc [] = .done length crc := by
  rw [calcLoop,if_pos rfl]

lemma calcLoop_block (hrest : bufLen ≤ rest.length)
    (hlen : length+bufLen < 0x10000000000000000) :
    calcLoop tagged length crc rest =
      calcLoop tagged (length+bufLen) ((rest.take bufLen).foldl crcStep crc)
        (rest.drop bufLen) := by
  have hb : bufLen = 65536 := rfl
  have hne : rest ≠ [] := by
    rintro rfl
    simp [hb] at hrest
  have htake : (rest.take bufLen).length = bufLen := length_take_of_le hrest
  have hstrip : stripped tagged bufLen = bufLen := if_neg (fun h => h.1 rfl)
  rw [calcLoop,if_neg hne]
  simp only [htake,hstrip]
  rw [if_neg (by omega),if_neg (by omega),Nat.mod_eq_of_lt hlen,
    take_of_length_le (le_of_eq htake)]

lemma stripped_short {n : ℕ} (hn : n < bufLen) :
    stripped tagged n =
      if tagged = false then n else if n < 8 then n+0x100000000-8 else n-8 := by
  have hb : bufLen = 65536 := rfl
  have hne : n ≠ bufLen := by omega
  rw [stripped]
  cases tagged with
  | false => rw [if_neg (by simp),if_pos rfl]
  | true =>
    rw [if_pos ⟨hne,rfl⟩,if_neg (by simp)]
    split <;> omega

lemma calcLoop_short (hrest : rest.length < bufLen)
    (hlen : length+rest.length < 0x10000000000000000) :
    calcLoop tagged length crc rest = (kept tagged rest).elim .fault (counted length crc) := by
  have hb : bufLen = 65536 := rfl
  by_cases hnil : rest = []
  · subst hnil
    rw [calcLoop_nil]
    simp [kept,counted]
  have hpos := length_pos_of_ne_nil hnil
  have htake : rest.take bufLen = rest := take_of_length_le (le_of_lt hrest)
  have hdrop : rest.drop bufLen = [] := drop_eq_nil_of_le (le_of_lt hrest)
  rw [calcLoop,if_neg hnil]
  simp only [htake,hdrop,stripped_short hrest,calcLoop_nil]
  rw [if_neg (by omega),kept,Nat.mod_eq_of_lt hrest]
  cases tagged with
  | false =>
    rw [if_pos rfl,if_neg (by omega),if_pos (.inl rfl),Nat.mod_eq_of_lt hlen,take_length]
    rfl
  | true =>
    have hkept : ¬ (true = false ∨ rest.length = 0) := by
      rintro (h | h)
      · cases h
      · omega
    rw [if_neg (nofun : ¬ true = false),if_neg hkept]
    by_cases h8 : rest.length < 8
    · rw [if_pos h8,if_pos (by omega),if_pos h8]
      rfl
    · rw [if_neg h8,if_neg (by omega),if_neg h8,Nat.mod_eq_of_lt (by omega)]
      simp [counted]

lemma kept_block (hrest : bufLen ≤ rest.length) :
    kept tagged rest = (kept tagged (rest.drop bufLen)).map (rest.take bufLen ++ ·) := by
  have hmod : (rest.length-bufLen) % bufLen = rest.length % bufLen :=
    (Nat.mod_eq_sub_mod hrest).symm
  rw [kept,kept,length_drop,hmod]
  split
  · simp
  split
  · rfl
  next h0 h8 =>
    have hb : bufLen = 65536 := rfl
    have hlen : rest.length-8 = bufLen+(rest.length-bufLen-8) := by
      rw [hb] at h8 hrest ⊢
      omega
    rw [hlen,take_add]
    rfl

lemma calcLoop_eq (hlen : length+rest.length < 0x10000000000000000) :
    calcLoop tagged length crc rest = (kept tagged rest).elim .fault (counted length crc) := by
  have hb : bufLen = 65536 := rfl
  -- the induction is on the number of blocks that are left
  induction hn : rest.length using Nat.strongRecOn generalizing length crc rest with
  | ind n ih =>
    by_cases hrest : rest.length < bufLen
    · exact calcLoop_short hrest hlen
    rw [not_lt] at hrest
    have hdrop := length_drop (i := bufLen) (l := rest)
    rw [calcLoop_block hrest (by omega),kept_block hrest,ih _ (by omega) (by omega) hdrop]
    cases kept tagged (rest.drop bufLen) with
    | none => rfl
    | some bytes =>
      have htake : (rest.take bufLen).length = bufLen := length_take_of_le hrest
      simp [counted,htake,add_assoc]

lemma calcLoop_error (hlength : length < 0x10000000000000000)
    (hlen : 0x10000000000000000 ≤ length+rest.length) :
    calcLoop tagged length crc rest = .error := by
  have hb : bufLen = 65536 := rfl
  induction hn : rest.length using Nat.strongRecOn generalizing length crc rest with
  | ind n ih =>
    by_cases hblock : bufLen ≤ rest.length ∧ length+bufLen < 0x10000000000000000
    · have hdrop := length_drop (i := bufLen) (l := rest)
      rw [calcLoop_block hblock.1 hblock.2]
      exact ih _ (by omega) hblock.2 (by omega) hdrop
    have hne : rest ≠ [] := by
      rintro rfl
      simp at hlen
      omega
    rw [calcLoop,if_neg hne]
    simp only [length_take]
    rw [if_pos (by omega)]

def cksum (bytes : Bytes) : BitVec 32 :=
  ~~~ (lengthBytes bytes.length).foldl crcStep (bytes.foldl crcStep 0)

lemma bufStep_eq (crc : BitVec 32) (b : UInt8) : bufStep crc b = crcStep crc b := by
  have hsign : (b.toBitVec.signExtend 32).setWidth 8 = b.toBitVec := by
    apply eq_of_getLsbD_eq
    intro i hi
    simp [getLsbD_signExtend,hi]
    omega
  rw [bufStep,crcStep,index_eq crc hsign,index_eq crc (b := b.toBitVec) (by simp)]

lemma csCalcBufSum_eq (buf : Bytes) : csCalcBufSum buf = cksum buf := by
  rw [csCalcBufSum,cksum,funext₂ bufStep_eq]

lemma csCalcSum_eq (hread : fp.bytes.length ≤ d.readable)
    (hlen : fp.bytes.length < 0x10000000000000000) :
    csCalcSum d tagged fp =
      ((kept tagged fp.bytes).elim .fault fun b => .sum (cksum b), ⟨fp.bytes,fp.bytes.length⟩) := by
  rw [csCalcSum,take_of_length_le hread,calcLoop_eq (by omega)]
  cases kept tagged fp.bytes with
  | none => rfl
  | some b => simp [counted,calcEnd,cksum]

lemma csCalcSum_error (hread : fp.bytes.length ≤ d.readable)
    (hlen : 0x10000000000000000 ≤ fp.bytes.length) :
    csCalcSum d tagged fp = (.error,⟨fp.bytes,fp.bytes.length⟩) := by
  rw [csCalcSum,take_of_length_le hread,calcLoop_error (by decide) (by omega)]
  rfl

lemma cksum_inj (h : a.length = b.length) :
    cksum a = cksum b ↔ a.foldl crcStep 0 = b.foldl crcStep 0 := by
  rw [cksum,cksum,h]
  simp only [foldl_crcStep]
  exact BitVec.not_inj.trans (Crc.feed_injective (by decide) _).eq_iff

lemma cksum_append_inj (h : a.length = b.length) (t : Bytes) :
    cksum (a ++ t) = cksum (b ++ t) ↔ cksum a = cksum b := by
  rw [cksum_inj (by simp [h]),cksum_inj h]
  simp only [foldl_crcStep,map_append,Crc.feed_append]
  exact (Crc.feed_injective (by decide) _).eq_iff

end DslG624t.Chksum
