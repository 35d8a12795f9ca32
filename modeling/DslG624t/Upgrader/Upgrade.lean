import DslG624t.Upgrader.Split

/-!
# What a split upgrade writes, and when it ends

A loop that ends has written whole blocks: the last one runs over the end of the section unless
the size is a multiple of a block or the file ends with the section.
-/

namespace DslG624t.Upgrader

open CString List Option

variable {e : Endian} {s : Setup} {image : Bytes} {hdr : Header} {writes : ℕ → Option ℕ}

def InImage (image : Bytes) (offset size : ℕ) : Prop := size = 0 ∨ offset+size ≤ image.length

variable {fuel size offset : ℕ} {kernel : Section} {b : Bytes} {out : Upgrade}

lemma inImage_iff : InImage image offset size ↔ size ≤ (image.drop offset).length := by
  rw [InImage,length_drop]
  omega

def Header.fstart (hdr : Header) : ℕ := if Seekable hdr.foffset then hdr.foffset else 0

def Setup.kernelOpens (s : Setup) (hdr : Header) : Prop :=
  s.openKernel = true ∧ s.fopenKernel = true ∧ Seekable hdr.koffset

def Setup.filesysOpens (s : Setup) : Prop := s.openFilesys = true ∧ s.fopenFilesys = true

lemma upgradeKernel_opens (h : s.kernelOpens hdr) (fuel : ℕ) :
    upgradeKernel s image hdr writes fuel =
      (copySection writes hdr.ksize fuel 0 0 (image.drop hdr.koffset)).bind
        (kernelDone s image hdr writes fuel) := by
  obtain ⟨hopen,hfopen,hseek⟩ := h
  rw [upgradeKernel,if_neg (by simp [hopen,hfopen,hseek])]

lemma upgradeKernel_not_opens (h : ¬ s.kernelOpens hdr) (fuel : ℕ) :
    upgradeKernel s image hdr writes fuel = some failed := by
  rw [upgradeKernel,if_pos]
  by_contra hc
  rw [Setup.kernelOpens] at h
  simp [and_assoc] at hc
  exact h hc

lemma upgradeFilesys_opens (h : s.filesysOpens) (fuel nw : ℕ) (kernel : Section) :
    upgradeFilesys s image hdr writes fuel nw kernel =
      (copySection writes hdr.fsize fuel nw kernel.m (image.drop hdr.fstart)).map
        (filesysDone kernel) := by
  rw [upgradeFilesys,if_neg (by simp [h.1,h.2])]
  rfl

lemma upgradeFilesys_not_opens (h : ¬ s.filesysOpens) (fuel nw : ℕ) (kernel : Section) :
    upgradeFilesys s image hdr writes fuel nw kernel =
      some ⟨-1,kernel.dev,[],kernel.bar.inside⟩ := by
  rw [upgradeFilesys,if_pos]
  by_contra hc
  rw [Setup.filesysOpens] at h
  simp at hc
  exact h hc

def Safe (call : ℕ → Option Upgrade) : Prop := ∃ out, Ends call out ∧ out.inside = true

lemma upgradeFilesys_safe (h : s.filesysOpens → InImage image hdr.fstart hdr.fsize)
    (writes : ℕ → Option ℕ) (nw : ℕ) (hkernel : kernel.bar.inside = true) :
    Safe fun fuel => upgradeFilesys s image hdr writes fuel nw kernel := by
  by_cases hopen : s.filesysOpens
  · obtain ⟨ok,nw',st,hinside,hends⟩ :=
      copySection_ends writes (inImage_iff.mp (h hopen)) nw kernel.m
    simp only [Safe,upgradeFilesys_opens hopen]
    exact ⟨_,hends.map (filesysDone kernel),by simp [filesysDone,hkernel,hinside]⟩
  · exact ⟨_,⟨0,fun fuel _ => upgradeFilesys_not_opens hopen fuel nw kernel⟩,hkernel⟩

lemma upgradeKernel_safe (hk : s.kernelOpens hdr → InImage image hdr.koffset hdr.ksize)
    (hf : s.kernelOpens hdr → s.filesysOpens → InImage image hdr.fstart hdr.fsize)
    (writes : ℕ → Option ℕ) : Safe fun fuel => upgradeKernel s image hdr writes fuel := by
  by_cases hopen : s.kernelOpens hdr
  · obtain ⟨ok,nw,st,hinside,hends⟩ :=
      copySection_ends writes (inImage_iff.mp (hk hopen)) 0 0
    simp only [Safe,upgradeKernel_opens hopen]
    cases ok with
    | false => exact ⟨_,hends.bind (Ends.const _),hinside⟩
    | true =>
      obtain ⟨out,hout,hsafe⟩ := upgradeFilesys_safe (hf hopen) writes nw hinside
      exact ⟨out,hends.bind hout,hsafe⟩
  · exact ⟨failed,⟨0,fun fuel _ => upgradeKernel_not_opens hopen fuel⟩,rfl⟩

def fullWrites : ℕ → Option ℕ := fun _ => some 255

lemma fullWrites_ne (n : ℕ) : fullWrites n ≠ none := nofun

lemma inImage_of_safe (h : Safe fun fuel => upgradeKernel s image hdr fullWrites fuel)
    (hopen : s.kernelOpens hdr) :
    InImage image hdr.koffset hdr.ksize ∧
      (s.filesysOpens → InImage image hdr.fstart hdr.fsize) := by
  obtain ⟨out,hends,-⟩ := h
  simp only [upgradeKernel_opens hopen] at hends
  have hkernel : InImage image hdr.koffset hdr.ksize := by
    by_contra hc
    rw [inImage_iff,not_le] at hc
    refine not_ends (fun fuel => ?_) out hends
    show Option.bind _ _ = none
    rw [copySection_eq_none hc fullWrites_ne,bind_none]
  refine ⟨hkernel,fun hopen' => ?_⟩
  by_contra hc
  rw [inImage_iff,not_le] at hc
  obtain ⟨ok,nw,st,-,k,hk⟩ := copySection_ends fullWrites (inImage_iff.mp hkernel) 0 0
  have hok : ok = true := copySection_fst fullWrites_ne (hk k (le_refl k))
  subst hok
  obtain ⟨k',hk'⟩ := hends
  have hrun := hk' (max k k') (by omega)
  dsimp only at hk hrun
  rw [hk _ (by omega : max k k' ≥ k),bind_some,kernelDone,upgradeFilesys_opens hopen',
    copySection_eq_none hc fullWrites_ne] at hrun
  cases hrun

theorem upgradeSplit_ends_iff (e : Endian) (s : Setup) (image : Bytes) :
    (∀ writes, Safe fun fuel => nspUpgUpgradeSplit e s image writes fuel) ↔
      ∀ hdr, accepted e s image = some hdr → s.kernelOpens hdr →
        InImage image hdr.koffset hdr.ksize ∧
          (s.filesysOpens → InImage image hdr.fstart hdr.fsize) := by
  constructor
  · intro h hdr hhdr hopen
    have hsafe := h fullWrites
    simp only [nspUpgUpgradeSplit,hhdr] at hsafe
    exact inImage_of_safe hsafe hopen
  intro h writes
  cases hhdr : accepted e s image with
  | none =>
    simp only [nspUpgUpgradeSplit,hhdr]
    exact ⟨failed,Ends.const _,rfl⟩
  | some hdr =>
    simp only [nspUpgUpgradeSplit,hhdr]
    exact upgradeKernel_safe (fun ho => (h hdr hhdr ho).1) (fun ho => (h hdr hhdr ho).2) writes

def imageOf (hdr : Header) (rest : Bytes) : Bytes :=
  List.replicate 112 0 ++ (Endian.little.encode hdr.koffset ++ (Endian.little.encode hdr.ksize ++
    (List.replicate 8 0 ++ (Endian.little.encode hdr.foffset ++ (Endian.little.encode hdr.fsize ++
      (List.replicate 8 0 ++ rest))))))

def openSetup : Setup := ⟨true,true,true,none,none,true,true,true,true⟩

/-- A kernel of one byte that starts where the image ends. -/
theorem upgradeSplit_ends_fails_short :
    ¬ Safe fun fuel =>
      nspUpgUpgradeSplit .little openSetup (imageOf ⟨144,1,0,0⟩ []) fullWrites fuel := by
  have hhdr : accepted .little openSetup (imageOf ⟨144,1,0,0⟩ []) = some ⟨144,1,0,0⟩ := by
    decide +kernel
  intro h
  simp only [nspUpgUpgradeSplit,hhdr] at h
  have himage := (inImage_of_safe h ⟨rfl,rfl,by decide⟩).1
  exact absurd himage (by unfold InImage; decide +kernel)

def sectionOf (image : Bytes) (offset size : ℕ) : Bytes := (image.drop offset).take size

/-- Both devices got their sections, and no more than the variables give room for. -/
structure Exact (s : Setup) (image : Bytes) (hdr : Header) (out : Upgrade) : Prop where
  kernel : out.kernel = sectionOf image hdr.koffset hdr.ksize
  filesys : out.filesys = sectionOf image hdr.foffset hdr.fsize
  kernelRoom : ∀ b f t, s.mtd1 = some b → parseRange b = some (f,t) → out.kernel.length ≤ t-f
  filesysRoom : ∀ b f t, s.mtd0 = some b → parseRange b = some (f,t) → out.filesys.length ≤ t-f

def Whole (image : Bytes) (offset size : ℕ) : Prop :=
  splitBlock ∣ size ∨ offset+size = image.length

def Ordered (mtd : Option Bytes) (size : ℕ) : Prop :=
  size = 0 ∨ ∀ b f t, mtd = some b → parseRange b = some (f,t) → f ≤ t

lemma roundUp_cases (size : ℕ) :
    size ≤ roundUp size ∧ (splitBlock ∣ size ↔ roundUp size = size) := by
  have hb : splitBlock = 256 := rfl
  rw [roundUp,hb]
  omega

lemma take_roundUp_eq {src : Bytes} (h : size ≤ src.length) :
    src.take (roundUp size) = src.take size ↔ splitBlock ∣ size ∨ src.length = size := by
  obtain ⟨hle,hdvd⟩ := roundUp_cases size
  constructor
  · intro heq
    have hlen := congrArg length heq
    rw [length_take,length_take] at hlen
    rw [hdvd]
    omega
  · rintro (hd | hlen)
    · rw [hdvd.mp hd]
    · rw [take_of_length_le (by omega),take_of_length_le (by omega)]

lemma dev_eq_section (h : size ≤ (image.drop offset).length) :
    (image.drop offset).take (roundUp size) = sectionOf image offset size ↔
      Whole image offset size := by
  rw [sectionOf,take_roundUp_eq h,Whole]
  rw [length_drop] at h ⊢
  by_cases h0 : size = 0
  · simp [h0]
  · exact or_congr_right (by omega)

lemma length_section (h : size ≤ (image.drop offset).length) :
    (sectionOf image offset size).length = size := by
  rw [sectionOf,length_take_of_le h]

lemma hexLoop_lt {r : ℕ} (hr : r < 0x100000000) (p : Bytes) : hexLoop r p < 0x100000000 := by
  induction p generalizing r with
  | nil => exact hr
  | cons c p ih =>
    rw [hexLoop]
    cases hex2dig c with
    | none => exact hr
    | some i => exact ih (Nat.mod_lt _ (by decide))

lemma hex2int_lt {v : ℕ} (h : hex2int b = some v) : v < 0x100000000 := by
  rw [hex2int] at h
  split at h
  · cases h
  · cases h
    exact hexLoop_lt (by decide) _

lemma parseRange_lt {f t : ℕ} (h : parseRange b = some (f,t)) :
    f < 0x100000000 ∧ t < 0x100000000 := by
  rw [parseRange] at h
  split at h
  next f' p hf hp =>
    obtain ⟨t',ht,heq⟩ := map_eq_some_iff.mp h
    cases heq
    exact ⟨hex2int_lt hf,hex2int_lt ht⟩
  · cases h

lemma room_iff {mtd : Option Bytes} (h : fits mtd size = true) :
    (∀ b f t, mtd = some b → parseRange b = some (f,t) → size ≤ t-f) ↔ Ordered mtd size := by
  constructor
  · intro hroom
    by_cases h0 : size = 0
    · exact .inl h0
    · refine .inr fun b f t hb hr => ?_
      have := hroom b f t hb hr
      omega
  rintro (h0 | hord) b f t hb hr
  · omega
  · have hle := hord b f t hb hr
    obtain ⟨hf,ht⟩ := parseRange_lt hr
    simp only [fits,hb,hr,decide_eq_true_eq] at h
    omega

structure Done (s : Setup) (image : Bytes) (hdr : Header) (out : Upgrade) : Prop where
  short : Seekable image.length
  kernelFits : fits s.mtd1 hdr.ksize = true
  filesysFits : fits s.mtd0 hdr.fsize = true
  kernelIn : hdr.ksize ≤ (image.drop hdr.koffset).length
  kernel : out.kernel = (image.drop hdr.koffset).take (roundUp hdr.ksize)
  filesysIn : hdr.fsize ≤ (image.drop hdr.fstart).length
  filesys : out.filesys = (image.drop hdr.fstart).take (roundUp hdr.fsize)

lemma upgradeFilesys_ok {fuel nw : ℕ}
    (h : upgradeFilesys s image hdr writes fuel nw kernel = some out) (hret : out.ret = 0) :
    out.kernel = kernel.dev ∧ hdr.fsize ≤ (image.drop hdr.fstart).length ∧
      out.filesys = (image.drop hdr.fstart).take (roundUp hdr.fsize) := by
  by_cases hopen : s.filesysOpens
  · rw [upgradeFilesys_opens hopen] at h
    obtain ⟨⟨ok,nw',st⟩,hcopy,rfl⟩ := map_eq_some_iff.mp h
    cases ok with
    | false => cases hret
    | true => exact ⟨rfl,copySection_dev hcopy⟩
  · rw [upgradeFilesys_not_opens hopen] at h
    cases h
    cases hret

lemma upgradeKernel_ok (h : upgradeKernel s image hdr writes fuel = some out)
    (hret : out.ret = 0) :
    ∃ nw kernel, copySection writes hdr.ksize fuel 0 0 (image.drop hdr.koffset) =
      some (true,nw,kernel) ∧
      upgradeFilesys s image hdr writes fuel nw kernel = some out := by
  by_cases hopen : s.kernelOpens hdr
  · rw [upgradeKernel_opens hopen] at h
    obtain ⟨⟨ok,nw,kernel⟩,hcopy,hdone⟩ := bind_eq_some_iff.mp h
    cases ok with
    | false =>
      cases hdone
      cases hret
    | true => exact ⟨nw,kernel,hcopy,hdone⟩
  · rw [upgradeKernel_not_opens hopen] at h
    cases h
    cases hret

lemma accepted_inv (h : accepted e s image = some hdr) :
    Seekable image.length ∧ readHeader e image = some hdr ∧
      fits s.mtd1 hdr.ksize = true ∧ fits s.mtd0 hdr.fsize = true := by
  rw [accepted] at h
  split at h
  · cases h
  next hc =>
    obtain ⟨hhdr,hfits⟩ := filter_eq_some_iff.mp h
    rw [Bool.and_eq_true] at hfits
    simp at hc
    exact ⟨hc.2,hhdr,hfits⟩

lemma upgradeSplit_done (h : nspUpgUpgradeSplit e s image writes fuel = some out)
    (hret : out.ret = 0) (hhdr : readHeader e image = some hdr) : Done s image hdr out := by
  rw [nspUpgUpgradeSplit] at h
  cases hacc : accepted e s image with
  | none =>
    rw [hacc] at h
    cases h
    cases hret
  | some hdr' =>
    obtain ⟨hshort,hread,hkfits,hffits⟩ := accepted_inv hacc
    obtain rfl : hdr' = hdr := some.inj (hread.symm.trans hhdr)
    rw [hacc] at h
    obtain ⟨nw,kernel,hcopy,hfs⟩ := upgradeKernel_ok h hret
    obtain ⟨hkin,hkdev⟩ := copySection_dev hcopy
    obtain ⟨hkernel,hfin,hfdev⟩ := upgradeFilesys_ok hfs hret
    exact ⟨hshort,hkfits,hffits,hkin,hkernel.trans hkdev,hfin,hfdev⟩

namespace Done

lemma kernel_iff (d : Done s image hdr out) :
    out.kernel = sectionOf image hdr.koffset hdr.ksize ↔ Whole image hdr.koffset hdr.ksize := by
  rw [d.kernel,dev_eq_section d.kernelIn]

lemma filesys_iff (d : Done s image hdr out) :
    out.filesys = sectionOf image hdr.foffset hdr.fsize ↔
      hdr.fsize = 0 ∨ Seekable hdr.foffset ∧ Whole image hdr.foffset hdr.fsize := by
  have hin := d.filesysIn
  rw [d.filesys]
  by_cases hseek : Seekable hdr.foffset
  · rw [Header.fstart,if_pos hseek] at hin ⊢
    rw [dev_eq_section hin]
    constructor
    · exact fun h => .inr ⟨hseek,h⟩
    · rintro (h0 | ⟨-,h⟩)
      · exact .inl (by simp [h0])
      · exact h
  rw [Header.fstart,if_neg hseek,drop_zero] at hin ⊢
  have hshort := d.short
  have hempty : sectionOf image hdr.foffset hdr.fsize = [] := by
    unfold Seekable at hshort hseek
    rw [sectionOf,drop_eq_nil_of_le (by omega),take_nil]
  have hle := (roundUp_cases hdr.fsize).1
  rw [hempty,take_eq_nil_iff]
  constructor
  · rintro (h0 | hnil)
    · exact .inl (by omega)
    · rw [hnil] at hin
      exact .inl (Nat.le_zero.mp hin)
  · rintro (h0 | ⟨h,-⟩)
    · exact .inl (by rw [h0]; rfl)
    · exact absurd h hseek

lemma length_kernel (d : Done s image hdr out)
    (h : out.kernel = sectionOf image hdr.koffset hdr.ksize) : out.kernel.length = hdr.ksize := by
  rw [h,length_section d.kernelIn]

lemma length_filesys (d : Done s image hdr out)
    (h : out.filesys = sectionOf image hdr.foffset hdr.fsize) :
    out.filesys.length = hdr.fsize := by
  rcases d.filesys_iff.mp h with h0 | ⟨hseek,-⟩
  · rw [h,h0,sectionOf,take_zero,length_nil]
  · have hin := d.filesysIn
    rw [Header.fstart,if_pos hseek] at hin
    rw [h,length_section hin]

end Done

theorem upgradeSplit_exact_iff {fuel : ℕ} {out : Upgrade}
    (h : nspUpgUpgradeSplit e s image writes fuel = some out) (hret : out.ret = 0)
    (hhdr : readHeader e image = some hdr) :
    Exact s image hdr out ↔
      Whole image hdr.koffset hdr.ksize ∧
      (hdr.fsize = 0 ∨ Seekable hdr.foffset ∧ Whole image hdr.foffset hdr.fsize) ∧
      Ordered s.mtd1 hdr.ksize ∧ Ordered s.mtd0 hdr.fsize := by
  have d := upgradeSplit_done h hret hhdr
  rw [← d.kernel_iff,← d.filesys_iff,← room_iff d.kernelFits,← room_iff d.filesysFits]
  constructor
  · intro hex
    have hkroom := hex.kernelRoom
    have hfroom := hex.filesysRoom
    rw [d.length_kernel hex.kernel] at hkroom
    rw [d.length_filesys hex.filesys] at hfroom
    exact ⟨hex.kernel,hex.filesys,hkroom,hfroom⟩
  · rintro ⟨hkernel,hfilesys,hkroom,hfroom⟩
    refine ⟨hkernel,hfilesys,?_,?_⟩
    · rwa [d.length_kernel hkernel]
    · rwa [d.length_filesys hfilesys]

/-- A kernel of one block, with the file system behind it. -/
theorem upgradeSplit_exact_block :
    Exact openSetup (imageOf ⟨144,256,400,1⟩ (List.replicate 256 75 ++ [70]))
      ⟨144,256,400,1⟩ ⟨0,List.replicate 256 75,[70],true⟩ := by
  have hrun : nspUpgUpgradeSplit .little openSetup
      (imageOf ⟨144,256,400,1⟩ (replicate 256 75 ++ [70])) fullWrites 2 =
      some ⟨0,replicate 256 75,[70],true⟩ := by decide +kernel
  refine (upgradeSplit_exact_iff hrun rfl (by decide +kernel)).mpr ⟨.inl (by decide),.inr ?_,?_⟩
  · exact ⟨by decide,.inr (by decide +kernel)⟩
  · exact ⟨.inr nofun,.inr nofun⟩

/-- A kernel of one byte: the block with it holds the file system too, and all of it is written. -/
theorem upgradeSplit_exact_fails_byte :
    nspUpgUpgradeSplit .little openSetup (imageOf ⟨144,1,145,1⟩ [75,70]) fullWrites 2 =
      some ⟨0,[75,70],[70],true⟩ ∧
      readHeader .little (imageOf ⟨144,1,145,1⟩ [75,70]) = some ⟨144,1,145,1⟩ ∧
      ¬ Exact openSetup (imageOf ⟨144,1,145,1⟩ [75,70]) ⟨144,1,145,1⟩
        ⟨0,[75,70],[70],true⟩ := by
  refine ⟨by decide +kernel,by decide +kernel,fun h => ?_⟩
  exact absurd h.kernel (by decide +kernel)

end DslG624t.Upgrader
