import DslG624t.Upgrader.Upgrade

/-!
# The variables of the flash partitions

`nsp_upg_mtdset` reads the range of the single image from the environment, checks that the image
fits into it, and writes the variables of the single image, the kernel and the root file system,
each before the next one is looked at.
-/

namespace DslG624t.Upgrader

open CString Function List Option

/-- `mtd0`, `mtd1` and `mtd4`. -/
inductive MtdVar
  | filesys
  | kernel
  | simage
  deriving DecidableEq

abbrev BootEnv := MtdVar → Option Bytes

structure FileCalls where
  fopen : Bool
  fread : Bool
  refopen : Bool
  fseek : Bool

def simageMagicNumber : ℕ := 0x4D544434

def getRange (env : BootEnv) (v : MtdVar) : Option (ℕ × ℕ) :=
  (env v).bind fun val => parseRange (val.take 255)

def align (r : ℕ × ℕ) : ℕ × ℕ := (r.1 / 0x10000*0x10000,r.2 / 0x10000*0x10000)

def mtdRange (env : BootEnv) : Option (ℕ × ℕ) :=
  match env .simage with
  | some val => parseRange (val.take 255)
  | none =>
    match getRange env .kernel, getRange env .filesys with
    | some (f,t), some (f',t') => some (min f f',max t t')
    | _, _ => none

def readMagic (e : Endian) (io : FileCalls) (image : Bytes) : Option Header :=
  if !io.fopen || !Seekable image.length || !io.fread then none
  else (readHeader e image).filter fun _ => e.decode image = simageMagicNumber

def mtdCheck (e : Endian) (io : FileCalls) (image : Bytes) (env : BootEnv) :
    Option (Header × ℕ × ℕ) :=
  match readMagic e io image, mtdRange env with
  | some hdr, some r =>
    let (f,t) := align r
    if !io.refopen || !io.fseek || (t+0x100000000-f) % 0x100000000 < image.length then none
    else some (hdr,f,t)
  | _, _ => none

def hexChar (d : ℕ) : UInt8 := UInt8.ofNat (if d < 10 then 0x30+d else 0x57+d)

def hexDigits : ℕ → ℕ → Bytes → Bytes
  | 0, _, rest => rest
  | k+1, n, rest =>
    if n / 16 = 0 then hexChar n :: rest else hexDigits k (n / 16) (hexChar (n % 16) :: rest)

def hexText (n : ℕ) (rest : Bytes) : Bytes := 0x30 :: 0x78 :: hexDigits 8 n rest

def rangeText (r : ℕ × ℕ) : Bytes := hexText r.1 (0x2c :: hexText r.2 [])

def setRange (sets : MtdVar → Bool) (v : MtdVar) (range : Option (ℕ × ℕ)) (env : BootEnv) :
    Bool × BootEnv :=
  match range with
  | none => (false,env)
  | some r =>
    if sets v then (true,update env v (some (rangeText r))) else (false,env)

def newRange (fromImage : Bool) (r : ℕ × ℕ) (v : MtdVar) (env : BootEnv) : Option (ℕ × ℕ) :=
  if fromImage then some (r.1 % 0x100000000,r.2 % 0x100000000)
  else (getRange env v).map align

def nspUpgMtdset (e : Endian) (io : FileCalls) (sets : MtdVar → Bool) (image : Bytes)
    (mode : BitVec 32) (env : BootEnv) : Bool × BootEnv :=
  match mtdCheck e io image env with
  | none => (false,env)
  | some (hdr,f,t) =>
    let (ok,env) := setRange sets .simage (some (f,t)) env
    if !ok then (false,env)
    else
      let kernel := newRange (mode &&& 1 ≠ 0) (f+hdr.koffset,f+hdr.foffset) .kernel env
      let (ok,env) := setRange sets .kernel kernel env
      if !ok then (false,env)
      else
        setRange sets .filesys
          (newRange (mode &&& 2 ≠ 0) (f+hdr.foffset,t) .filesys env) env

variable {rest : Bytes} {n : ℕ} {r r' : ℕ × ℕ} {v : MtdVar} {b : Bool}

lemma hexChar_spec : ∀ d < 16,
    hex2dig (hexChar d) = some d ∧ hexChar d ≠ 0x2c ∧ hexChar d ≠ 0 := by
  decide

lemma hexLoop_hexDigits {k n : ℕ} (hk : n < 16 ^ k) (hn : n < 0x100000000) (rest : Bytes) :
    hexLoop 0 (hexDigits k n rest) = hexLoop n rest := by
  induction k generalizing n rest with
  | zero =>
    obtain rfl : n = 0 := by simpa using hk
    rfl
  | succ k ih =>
    rw [hexDigits]
    split
    · rw [hexLoop,(hexChar_spec n (by omega)).1]
      dsimp only
      rw [Nat.zero_mul,zero_add,Nat.mod_eq_of_lt hn]
    · have hdiv : n / 16 < 16 ^ k := Nat.div_lt_of_lt_mul (by rwa [← pow_succ'])
      rw [ih hdiv (by omega),hexLoop,(hexChar_spec _ (Nat.mod_lt n (by decide))).1]
      dsimp only
      rw [Nat.div_add_mod',Nat.mod_eq_of_lt hn]

lemma hexDigits_of {P : Bytes → Prop} (hcons : ∀ d < 16, ∀ l, P l → P (hexChar d :: l)) (k n : ℕ)
    (h : P rest) : P (hexDigits k n rest) := by
  induction k generalizing n rest with
  | zero => exact h
  | succ k ih =>
    rw [hexDigits]
    split
    · exact hcons n (by omega) rest h
    · exact ih (n / 16) (hcons _ (Nat.mod_lt n (by decide)) rest h)

lemma nulFree_hexText (h : NulFree rest) : NulFree (hexText n rest) := by
  have hdigits : NulFree (hexDigits 8 n rest) :=
    hexDigits_of (fun d hd l hl => nulFree_cons.mpr ⟨(hexChar_spec d hd).2.2,hl⟩) 8 n h
  simp [hexText,hdigits]

lemma dropWhile_hexText (n : ℕ) (rest : Bytes) :
    (hexText n rest).dropWhile (· ≠ 0x2c) = rest.dropWhile (· ≠ 0x2c) := by
  have hdigits : (hexDigits 8 n rest).dropWhile (· ≠ 0x2c) = rest.dropWhile (· ≠ 0x2c) := by
    apply hexDigits_of (P := fun l => l.dropWhile (· ≠ 0x2c) = rest.dropWhile (· ≠ 0x2c)) _ 8 n rfl
    intro d hd l hl
    rw [dropWhile_cons_of_pos (by simpa using (hexChar_spec d hd).2.1),hl]
  simpa [hexText] using hdigits

lemma hex2int_hexText (hn : n < 0x100000000) (h : NulFree rest) :
    hex2int (hexText n rest) = some (hexLoop n rest) := by
  rw [hex2int,cstr_eq_self (nulFree_hexText h),← hexLoop_hexDigits (k := 8) hn hn]
  rfl

lemma parseRange_rangeText (h1 : r.1 < 0x100000000) (h2 : r.2 < 0x100000000) :
    parseRange (rangeText r) = some r := by
  have hnil : NulFree (hexText r.2 []) := nulFree_hexText not_mem_nil
  have hcomma : NulFree (0x2c :: hexText r.2 []) := nulFree_cons.mpr ⟨by decide,hnil⟩
  have hfirst : hex2int (rangeText r) = some r.1 := hex2int_hexText h1 hcomma
  have hdrop : (cstr (rangeText r)).dropWhile (· ≠ 0x2c) = 0x2c :: hexText r.2 [] := by
    rw [rangeText,cstr_eq_self (nulFree_hexText hcomma),dropWhile_hexText]
    rfl
  rw [parseRange,hfirst,hdrop]
  dsimp only
  rw [hex2int_hexText h2 not_mem_nil]
  rfl

lemma length_hexDigits (k n : ℕ) (rest : Bytes) : (hexDigits k n rest).length ≤ k+rest.length := by
  induction k generalizing n rest with
  | zero => simp [hexDigits]
  | succ k ih =>
    rw [hexDigits]
    split
    · simp only [length_cons]
      omega
    · have := ih (n / 16) (hexChar (n % 16) :: rest)
      simp only [length_cons] at this
      omega

lemma length_rangeText (r : ℕ × ℕ) : (rangeText r).length ≤ 255 := by
  have h1 := length_hexDigits 8 r.1 (0x2c :: hexText r.2 [])
  have h2 := length_hexDigits 8 r.2 []
  simp only [rangeText,hexText,length_cons,length_nil] at h1 h2 ⊢
  omega

variable {e : Endian} {io : FileCalls} {sets : MtdVar → Bool} {image : Bytes} {mode : BitVec 32}
  {env env' : BootEnv} {hdr : Header} {f t : ℕ}

def Words (r : ℕ × ℕ) : Prop := r.1 < 0x100000000 ∧ r.2 < 0x100000000

lemma Words.align (h : Words r) : Words (align r) := by
  simp only [Words,Upgrader.align] at h ⊢
  omega

lemma align_align (r : ℕ × ℕ) : align (align r) = align r := by
  simp [align]

lemma words_of_getRange (h : getRange env v = some r) : Words r := by
  obtain ⟨val,-,hval⟩ := bind_eq_some_iff.mp h
  exact parseRange_lt hval

lemma words_of_mtdRange (h : mtdRange env = some r) : Words r := by
  rw [mtdRange] at h
  split at h
  · exact parseRange_lt h
  split at h
  next f t f' t' hk hf =>
    cases h
    obtain ⟨hf1,ht1⟩ := words_of_getRange hk
    obtain ⟨hf2,ht2⟩ := words_of_getRange hf
    exact ⟨by simp only at *; omega,by simp only at *; omega⟩
  · cases h

lemma words_of_newRange (h : newRange b r v env = some r') : Words r' := by
  rw [newRange] at h
  split at h
  · cases h
    exact ⟨Nat.mod_lt _ (by decide),Nat.mod_lt _ (by decide)⟩
  · obtain ⟨r0,hr,rfl⟩ := map_eq_some_iff.mp h
    exact (words_of_getRange hr).align

def written (s k r : ℕ × ℕ) : BootEnv
  | .simage => some (rangeText s)
  | .kernel => some (rangeText k)
  | .filesys => some (rangeText r)

lemma getRange_some (hr : Words r) (h : env v = some (rangeText r)) : getRange env v = some r := by
  rw [getRange,h,bind_some,take_of_length_le (length_rangeText r),parseRange_rangeText hr.1 hr.2]

lemma newRange_congr (h : env v = env' v) (b : Bool) (r : ℕ × ℕ) :
    newRange b r v env = newRange b r v env' := by
  rw [newRange,newRange,getRange,getRange,h]

def newKernel (mode : BitVec 32) (hdr : Header) (f : ℕ) (env : BootEnv) : Option (ℕ × ℕ) :=
  newRange (mode &&& 1 ≠ 0) (f+hdr.koffset,f+hdr.foffset) .kernel env

def newFilesys (mode : BitVec 32) (hdr : Header) (f t : ℕ) (env : BootEnv) : Option (ℕ × ℕ) :=
  newRange (mode &&& 2 ≠ 0) (f+hdr.foffset,t) .filesys env

lemma mtdset_eq (h : mtdCheck e io image env = some (hdr,f,t)) (hsets : ∀ v, sets v = true) :
    nspUpgMtdset e io sets image mode env =
      match newKernel mode hdr f env, newFilesys mode hdr f t env with
      | none, _ => (false,update env .simage (some (rangeText (f,t))))
      | some k, none => (false,update
        (update env .simage (some (rangeText (f,t)))) .kernel (some (rangeText k)))
      | some k, some r => (true,written (f,t) k r) := by
  have hk : newRange (mode &&& 1 ≠ 0) (f+hdr.koffset,f+hdr.foffset) .kernel
      (update env .simage (some (rangeText (f,t)))) = newKernel mode hdr f env :=
    newRange_congr rfl _ _
  have hr (k : ℕ × ℕ) : newRange (mode &&& 2 ≠ 0) (f+hdr.foffset,t) .filesys
      (update (update env .simage (some (rangeText (f,t)))) .kernel
        (some (rangeText k))) = newFilesys mode hdr f t env :=
    newRange_congr rfl _ _
  simp only [nspUpgMtdset,h,setRange,hsets,if_true,Bool.not_true,Bool.false_eq_true,if_false,hk]
  cases newKernel mode hdr f env with
  | none => rfl
  | some k =>
    simp only [Bool.not_true,Bool.false_eq_true,if_false,hr]
    cases newFilesys mode hdr f t env with
    | none => rfl
    | some r =>
      refine congrArg (Prod.mk true) (funext fun v => ?_)
      cases v <;> rfl

lemma sets_of_setRange {range : Option (ℕ × ℕ)} (h : (setRange sets v range env).1 = true) :
    sets v = true := by
  cases range with
  | none => cases h
  | some r =>
    by_contra hv
    simp [setRange,hv] at h

lemma mtdset_of_not_checked (h : mtdCheck e io image env = none) :
    nspUpgMtdset e io sets image mode env = (false,env) := by
  rw [nspUpgMtdset,h]

lemma mtdset_ok (h : nspUpgMtdset e io sets image mode env = (true,env')) :
    ∃ hdr f t k r, mtdCheck e io image env = some (hdr,f,t) ∧ (∀ v, sets v = true) ∧
      newKernel mode hdr f env = some k ∧ newFilesys mode hdr f t env = some r ∧
      env' = written (f,t) k r := by
  cases hc : mtdCheck e io image env with
  | none =>
    rw [mtdset_of_not_checked hc] at h
    cases h
  | some c =>
    obtain ⟨hdr,f,t⟩ := c
    have hsets : ∀ v, sets v = true := by
      rw [nspUpgMtdset,hc] at h
      dsimp only at h
      split at h
      · cases h
      next hs =>
      split at h
      · cases h
      next hk =>
      intro v
      cases v with
      | simage => exact sets_of_setRange (by simpa using hs)
      | kernel => exact sets_of_setRange (by simpa using hk)
      | filesys => exact sets_of_setRange (congrArg Prod.fst h)
    rw [mtdset_eq hc hsets] at h
    split at h
    · cases h
    · cases h
    · next k r hk hr =>
      cases h
      exact ⟨hdr,f,t,k,r,rfl,hsets,hk,hr,rfl⟩

lemma mtdCheck_some (h : mtdCheck e io image env = some (hdr,f,t)) :
    ∃ r, readMagic e io image = some hdr ∧ mtdRange env = some r ∧ align r = (f,t) ∧
      image.length ≤ (t+0x100000000-f) % 0x100000000 := by
  rw [mtdCheck] at h
  split at h
  next hdr' r hhdr hr =>
    dsimp only at h
    split at h
    · cases h
    · next hfit =>
      cases h
      simp only [Bool.or_eq_true,decide_eq_true_eq,not_or,not_lt] at hfit
      exact ⟨r,hhdr,hr,rfl,hfit.2⟩
  · cases h

lemma mtdCheck_congr (h : (mtdRange env).map align = (mtdRange env').map align) :
    mtdCheck e io image env = mtdCheck e io image env' := by
  have hmap (env : BootEnv) : mtdCheck e io image env =
      (readMagic e io image).bind fun hdr => ((mtdRange env).map align).bind fun r =>
        if !io.refopen || !io.fseek || (r.2+0x100000000-r.1) % 0x100000000 < image.length then none
        else some (hdr,r) := by
    rw [mtdCheck]
    cases readMagic e io image <;> cases mtdRange env <;> rfl
  rw [hmap,hmap,h]

lemma readHeader_of_readMagic (h : readMagic e io image = some hdr) :
    readHeader e image = some hdr := by
  rw [readMagic] at h
  split at h
  · cases h
  · exact (filter_eq_some_iff.mp h).1

lemma readHeader_words (h : readHeader e image = some hdr) :
    hdr.koffset < 0x100000000 ∧ hdr.foffset < 0x100000000 := by
  rw [readHeader] at h
  split at h
  · cases h
  · cases h
    exact ⟨e.decode_lt _,e.decode_lt _⟩

lemma newRange_again (h : newRange b r v env = some r') (h' : env' v = some (rangeText r')) :
    newRange b r v env' = some r' := by
  have hget := getRange_some (words_of_newRange h) h'
  cases b with
  | true => exact h
  | false =>
    obtain ⟨r0,-,rfl⟩ := map_eq_some_iff.mp h
    exact (congrArg (Option.map align) hget).trans (congrArg some (align_align r0))

/-- The second call reads what the first one wrote. -/
theorem mtdset_idempotent (h : nspUpgMtdset e io sets image mode env = (true,env')) :
    nspUpgMtdset e io sets image mode env' = (true,env') ∧
      ∀ f t, f < 0x100000000 → t < 0x100000000 → parseRange (rangeText (f,t)) = some (f,t) := by
  obtain ⟨hdr,f,t,k,r,hcheck,hsets,hk,hr,rfl⟩ := mtdset_ok h
  obtain ⟨r₀,-,hr₀,halign,-⟩ := mtdCheck_some hcheck
  have hwords : Words (f,t) := halign ▸ (words_of_mtdRange hr₀).align
  have hrange : mtdRange (written (f,t) k r) = some (f,t) := by
    show getRange (written (f,t) k r) .simage = some (f,t)
    exact getRange_some hwords rfl
  have hagain : mtdCheck e io image (written (f,t) k r) = some (hdr,f,t) := by
    rw [← hcheck]
    apply mtdCheck_congr
    rw [hrange,hr₀,map_some,map_some,← halign,align_align]
  have hk' : newKernel mode hdr f (written (f,t) k r) = some k := newRange_again hk rfl
  have hr' : newFilesys mode hdr f t (written (f,t) k r) = some r := newRange_again hr rfl
  refine ⟨?_,fun f t hf ht => parseRange_rangeText hf ht⟩
  rw [mtdset_eq hagain hsets,hk',hr']

/-- The new ranges are one behind the other, and the image fits. -/
def InOrder (image : Bytes) (env : BootEnv) : Prop :=
  ∃ f t k1 k2 r1 r2, getRange env .simage = some (f,t) ∧ getRange env .kernel = some (k1,k2) ∧
    getRange env .filesys = some (r1,r2) ∧ f ≤ k1 ∧ k1 ≤ k2 ∧ k2 = r1 ∧ r1 ≤ r2 ∧ r2 = t ∧
    image.length ≤ t-f

lemma inOrder_written {s k r : ℕ × ℕ} (hs : Words s) (hk : Words k) (hr : Words r) :
    InOrder image (written s k r) ↔ s.1 ≤ k.1 ∧ k.1 ≤ k.2 ∧ k.2 = r.1 ∧ r.1 ≤ r.2 ∧ r.2 = s.2 ∧
      image.length ≤ s.2-s.1 := by
  constructor
  · rintro ⟨f,t,k1,k2,r1,r2,hs',hk',hr',h⟩
    cases (getRange_some hs rfl).symm.trans hs'
    cases (getRange_some hk rfl).symm.trans hk'
    cases (getRange_some hr rfl).symm.trans hr'
    exact h
  · intro h
    exact ⟨_,_,_,_,_,_,getRange_some hs rfl,getRange_some hk rfl,getRange_some hr rfl,h⟩

theorem mtdset_inOrder_iff (h : nspUpgMtdset e io sets image mode env = (true,env'))
    (h1 : mode &&& 1 ≠ 0) (h2 : mode &&& 2 ≠ 0) :
    InOrder image env' ↔
      ∀ hdr r, readHeader e image = some hdr → mtdRange env = some r →
        hdr.koffset ≤ hdr.foffset ∧ (align r).1+hdr.foffset ≤ (align r).2 := by
  obtain ⟨hdr,f,t,k,r,hcheck,-,hk,hr,rfl⟩ := mtdset_ok h
  obtain ⟨r₀,hmagic,hr₀,halign,hfit⟩ := mtdCheck_some hcheck
  have hhdr := readHeader_of_readMagic hmagic
  have hs : Words (f,t) := halign ▸ (words_of_mtdRange hr₀).align
  rw [inOrder_written hs (words_of_newRange hk) (words_of_newRange hr)]
  simp only [newKernel,newFilesys,newRange,h1,h2,ne_eq,not_false_eq_true,decide_true,if_true,
    some.injEq] at hk hr
  obtain rfl := hk
  obtain rfl := hr
  obtain ⟨hko,hfo⟩ := readHeader_words hhdr
  obtain ⟨hf,ht⟩ := hs
  have hcond : (∀ hdr r, readHeader e image = some hdr → mtdRange env = some r →
      hdr.koffset ≤ hdr.foffset ∧ (align r).1+hdr.foffset ≤ (align r).2) ↔
        hdr.koffset ≤ hdr.foffset ∧ f+hdr.foffset ≤ t := by
    constructor
    · intro hall
      have := hall hdr r₀ hhdr hr₀
      rwa [halign] at this
    · rintro hone hdr' r' hhdr' hr'
      cases hhdr.symm.trans hhdr'
      cases hr₀.symm.trans hr'
      rwa [halign]
  rw [hcond]
  dsimp only at hf ht hfit ⊢
  omega

def mtdImage (koffset foffset : ℕ) : Bytes :=
  Endian.little.encode simageMagicNumber ++ (replicate 108 0 ++
    (Endian.little.encode koffset ++ (replicate 12 0 ++
      (Endian.little.encode foffset ++ replicate 12 0))))

def allCalls : FileCalls := ⟨true,true,true,true⟩

def simageOnly : BootEnv
  | .simage => some (ofString "0x90010000,0x90400000")
  | _ => none

def setBoth (koffset foffset : ℕ) (env : BootEnv) : Bool × BootEnv :=
  nspUpgMtdset .little allCalls (fun _ => true) (mtdImage koffset foffset) 3 env

theorem mtdset_idempotent_both :
    setBoth 0x90 0x90000 (setBoth 0x90 0x90000 simageOnly).2 =
      (true,(setBoth 0x90 0x90000 simageOnly).2) := by
  have hok : (setBoth 0x90 0x90000 simageOnly).1 = true := by decide +kernel
  have hrun : setBoth 0x90 0x90000 simageOnly = (true,(setBoth 0x90 0x90000 simageOnly).2) := by
    rw [← hok]
  exact (mtdset_idempotent hrun).1

theorem mtdset_inOrder_both :
    InOrder (mtdImage 0x90 0x90000) (setBoth 0x90 0x90000 simageOnly).2 := by
  have hok : (setBoth 0x90 0x90000 simageOnly).1 = true := by decide +kernel
  have hrun : setBoth 0x90 0x90000 simageOnly = (true,(setBoth 0x90 0x90000 simageOnly).2) := by
    rw [← hok]
  have hhdr : readHeader .little (mtdImage 0x90 0x90000) = some ⟨0x90,0,0x90000,0⟩ := by
    decide +kernel
  have hrange : mtdRange simageOnly = some (0x90010000,0x90400000) := by decide +kernel
  refine (mtdset_inOrder_iff hrun (by decide) (by decide)).mpr ?_
  intro hdr r hhdr' hr
  cases hhdr.symm.trans hhdr'
  cases hrange.symm.trans hr
  decide

/-- The file system would start 8 MB into the image, behind the end of the flash. -/
theorem mtdset_not_inOrder :
    (setBoth 0x90 0x800000 simageOnly).1 = true ∧
      ¬ InOrder (mtdImage 0x90 0x800000) (setBoth 0x90 0x800000 simageOnly).2 := by
  have hroot : getRange (setBoth 0x90 0x800000 simageOnly).2 .filesys =
      some (0x90810000,0x90400000) := by decide +kernel
  refine ⟨by decide +kernel,?_⟩
  rintro ⟨f,t,k1,k2,r1,r2,-,-,hr,-,-,-,hle,-⟩
  cases hroot.symm.trans hr
  exact absurd hle (by decide)

lemma update_kernel_eq {s k : Option Bytes} :
    update (update env .simage s) .kernel k = env ↔
      env .simage = s ∧ env .kernel = k := by
  constructor
  · intro h
    exact ⟨(congrFun h .simage).symm,(congrFun h .kernel).symm⟩
  · rintro ⟨rfl,rfl⟩
    rw [update_eq_self,update_eq_self]

/-- A variable that cannot be read stops the call behind the writes before it, which must then
have written what was there. -/
theorem mtdset_keeps_iff (hsets : ∀ v, sets v = true) :
    ((nspUpgMtdset e io sets image mode env).1 = false →
      (nspUpgMtdset e io sets image mode env).2 = env) ↔
      ∀ hdr f t, mtdCheck e io image env = some (hdr,f,t) →
        (newKernel mode hdr f env = none → env .simage = some (rangeText (f,t))) ∧
        ∀ k, newKernel mode hdr f env = some k → newFilesys mode hdr f t env = none →
          env .simage = some (rangeText (f,t)) ∧ env .kernel = some (rangeText k) := by
  cases hcheck : mtdCheck e io image env with
  | none =>
    rw [mtdset_of_not_checked hcheck]
    exact ⟨fun _ _ _ _ => nofun,fun _ _ => rfl⟩
  | some c =>
    obtain ⟨hdr,f,t⟩ := c
    rw [mtdset_eq hcheck hsets]
    have hone {P : Header → ℕ → ℕ → Prop} :
        (∀ hdr' f' t', some (hdr,f,t) = some (hdr',f',t') → P hdr' f' t') ↔ P hdr f t :=
      ⟨fun h => h hdr f t rfl,fun h hdr' f' t' heq => by cases heq; exact h⟩
    rw [hone]
    cases newKernel mode hdr f env with
    | none => simp [eq_comm]
    | some k =>
      cases newFilesys mode hdr f t env with
      | none => simp [update_kernel_eq]
      | some r => simp

/-- The single image is written again as it was, and then the variable of the kernel is missing. -/
theorem mtdset_keeps_rewritten :
    (nspUpgMtdset .little allCalls (fun _ => true) (mtdImage 0x90 0x90000) 0 simageOnly).1 = false ∧
    (nspUpgMtdset .little allCalls (fun _ => true) (mtdImage 0x90 0x90000) 0 simageOnly).2 =
      simageOnly := by
  have hfails : (nspUpgMtdset .little allCalls (fun _ => true) (mtdImage 0x90 0x90000) 0
      simageOnly).1 = false := by
    decide +kernel
  refine ⟨hfails,(mtdset_keeps_iff fun _ => rfl).mpr ?_ hfails⟩
  have hcheck : mtdCheck .little allCalls (mtdImage 0x90 0x90000) simageOnly =
      some (⟨0x90,0,0x90000,0⟩,0x90010000,0x90400000) := by
    decide +kernel
  intro hdr f t h
  cases hcheck.symm.trans h
  exact ⟨fun _ => by decide +kernel,fun k hk => nomatch hk⟩

/-- The single image is aligned before the missing variable of the kernel is found. -/
theorem mtdset_fails_halfway :
    let env : BootEnv := update simageOnly .simage
      (some (ofString "0x90010080,0x90400000"))
    let out := nspUpgMtdset .little allCalls (fun _ => true) (mtdImage 0x90 0x90000) 0 env
    out.1 = false ∧ out.2 .simage = some (ofString "0x90010000,0x90400000") ∧
      out.2 .simage ≠ env .simage := by
  decide +kernel

end DslG624t.Upgrader
