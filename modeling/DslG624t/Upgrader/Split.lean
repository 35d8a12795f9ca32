import DslG624t.Lib.Pieces
import DslG624t.Lib.Word
import DslG624t.Upgrader.Progress

/-!
# The split upgrade

`nsp_upg_upgrade_split` takes an image that holds a kernel and a file system, checks from the
header and the environment that both fit into their flash partitions, and copies each to its block
device in blocks of 256 bytes.
-/

namespace DslG624t.Upgrader

open CString List Option
open Pieces (Cut drain drain_pieces drain_fst)

structure Header where
  koffset : ℕ
  ksize : ℕ
  foffset : ℕ
  fsize : ℕ
  deriving DecidableEq

def sizeofHeader : ℕ := 144

def readHeader (e : Endian) (image : Bytes) : Option Header :=
  if image.length < sizeofHeader then none
  else some ⟨e.decode (image.drop 112),e.decode (image.drop 116),e.decode (image.drop 128),
    e.decode (image.drop 132)⟩

def hex2dig (c : UInt8) : Option ℕ :=
  if 0x30 ≤ c ∧ c ≤ 0x39 then some (c.toNat-0x30)
  else if 0x41 ≤ c ∧ c ≤ 0x46 then some (c.toNat-0x41+10)
  else if 0x61 ≤ c ∧ c ≤ 0x66 then some (c.toNat-0x61+10)
  else none

def hexLoop : ℕ → Bytes → ℕ
  | r, [] => r
  | r, c :: p =>
    match hex2dig c with
    | none => r
    | some i => hexLoop ((r*16+i) % 0x100000000) p

def hex2int (b : Bytes) : Option ℕ :=
  match (cstr b).dropWhile (· ≠ 0x78) with
  | [] => none
  | _ :: p => some (hexLoop 0 p)

def parseRange (b : Bytes) : Option (ℕ × ℕ) :=
  match hex2int b, (cstr b).dropWhile (· ≠ 0x2c) with
  | some f, _ :: p => (hex2int p).map (f,·)
  | _, _ => none

def fits (mtd : Option Bytes) (size : ℕ) : Bool :=
  match mtd with
  | none => true
  | some b =>
    match parseRange b with
    | none => false
    | some (f,t) => size ≤ ((t : ℤ)-f) % 0x100000000

/-- The bytes written to the device, `m` and the bar. -/
structure Section where
  dev : Bytes
  m : ℕ
  bar : Bar
  deriving DecidableEq

def Section.put (st : Section) (piece : Bytes) : Section :=
  { st with dev := st.dev ++ piece, m := st.m+piece.length }

def Section.progress (quota : ℕ) (st : Section) : Section :=
  if quota ≤ st.m then { st with m := 0, bar := st.bar.mark } else st

def Section.finish (st : Section) : Section :=
  if st.bar.c ≤ progressCount then { st with bar := st.bar.put } else st

def splitBlock : ℕ := 256

/-- The loop over the blocks of a section, with `src` the file behind the position and `s` the
bytes done. Behind the end of the file it goes on without a block. -/
def sectionLoop (writes : ℕ → Option ℕ) (size : ℕ) :
    ℕ → ℕ → Bytes → ℕ → Section → Option (Bool × ℕ × Section)
  | 0, _, _, _, _ => none
  | fuel+1, nw, src, s, st =>
    if s < size then
      match drain writes Section.put nw (src.take splitBlock) st with
      | (false,nw,st) => some (false,nw,st)
      | (true,nw,st) =>
        sectionLoop writes size fuel nw (src.drop splitBlock) (s+(src.take splitBlock).length)
          (st.progress (size / progressCount))
    else some (true,nw,st)

def copySection (writes : ℕ → Option ℕ) (size fuel nw m : ℕ) (src : Bytes) :
    Option (Bool × ℕ × Section) :=
  (sectionLoop writes size fuel nw src 0 ⟨[],m,Bar.start⟩).map fun
    | (false,nw,st) => (false,nw,st)
    | (true,nw,st) => (true,nw,st.finish)

/-- What opening the devices and the image gives, and the values of the variables. -/
structure Setup where
  kblock : Bool
  fblock : Bool
  fopen : Bool
  mtd1 : Option Bytes
  mtd0 : Option Bytes
  openKernel : Bool
  fopenKernel : Bool
  openFilesys : Bool
  fopenFilesys : Bool

/-- What the call returns, what it wrote to each device, and whether the marks stayed in the
array. -/
structure Upgrade where
  ret : ℤ
  kernel : Bytes
  filesys : Bytes
  inside : Bool
  deriving DecidableEq

def Seekable (offset : ℕ) : Prop := offset < 0x80000000

instance (offset : ℕ) : Decidable (Seekable offset) := inferInstanceAs (Decidable (_ < _))

def failed : Upgrade := ⟨-1,[],[],true⟩

def filesysDone (kernel : Section) : Bool × ℕ × Section → Upgrade
  | (ok,_,filesys) =>
    ⟨if ok then 0 else -1,kernel.dev,filesys.dev,kernel.bar.inside && filesys.bar.inside⟩

/-- The copy of the file system. Its `fseek` is not checked, and where it fails the position is
still at the start of the file. -/
def upgradeFilesys (s : Setup) (image : Bytes) (hdr : Header) (writes : ℕ → Option ℕ)
    (fuel nw : ℕ) (kernel : Section) : Option Upgrade :=
  if !s.openFilesys || !s.fopenFilesys then some ⟨-1,kernel.dev,[],kernel.bar.inside⟩
  else
    let src := image.drop (if Seekable hdr.foffset then hdr.foffset else 0)
    (copySection writes hdr.fsize fuel nw kernel.m src).map (filesysDone kernel)

def kernelDone (s : Setup) (image : Bytes) (hdr : Header) (writes : ℕ → Option ℕ) (fuel : ℕ) :
    Bool × ℕ × Section → Option Upgrade
  | (false,_,kernel) => some ⟨-1,kernel.dev,[],kernel.bar.inside⟩
  | (true,nw,kernel) => upgradeFilesys s image hdr writes fuel nw kernel

def upgradeKernel (s : Setup) (image : Bytes) (hdr : Header) (writes : ℕ → Option ℕ)
    (fuel : ℕ) : Option Upgrade :=
  if !s.openKernel || !s.fopenKernel || !Seekable hdr.koffset then some failed
  else
    (copySection writes hdr.ksize fuel 0 0 (image.drop hdr.koffset)).bind
      (kernelDone s image hdr writes fuel)

def accepted (e : Endian) (s : Setup) (image : Bytes) : Option Header :=
  if !s.kblock || !s.fblock || !s.fopen || !Seekable image.length then none
  else (readHeader e image).filter fun hdr => fits s.mtd1 hdr.ksize && fits s.mtd0 hdr.fsize

def nspUpgUpgradeSplit (e : Endian) (s : Setup) (image : Bytes) (writes : ℕ → Option ℕ)
    (fuel : ℕ) : Option Upgrade :=
  match accepted e s image with
  | none => some failed
  | some hdr => upgradeKernel s image hdr writes fuel

variable {writes : ℕ → Option ℕ} {size : ℕ} {m n s nw nw' fuel : ℕ} {src : Bytes} {st : Section}
  {r : Bool × ℕ × Section}

@[simp]
lemma Section.progress_dev (quota : ℕ) (st : Section) : (st.progress quota).dev = st.dev := by
  rw [Section.progress]
  split <;> rfl

@[simp]
lemma Section.finish_dev (st : Section) : st.finish.dev = st.dev := by
  rw [Section.finish]
  split <;> rfl

lemma foldl_put (pieces : List Bytes) (st : Section) :
    pieces.foldl Section.put st = st.put pieces.flatten := by
  induction pieces generalizing st with
  | nil => simp [Section.put]
  | cons piece pieces ih => simp [ih,Section.put,add_assoc]

lemma drain_put (writes : ℕ → Option ℕ) (nw : ℕ) (block : Bytes) (st : Section) :
    (∃ nw', drain writes Section.put nw block st = (true,nw',st.put block)) ∨
    ∃ nw' part, drain writes Section.put nw block st = (false,nw',st.put part) := by
  obtain ⟨pieces,rest,nw',hcut,heq⟩ := drain_pieces writes nw block
  have heq := heq _ Section.put st
  rw [foldl_put] at heq
  cases rest with
  | nil =>
    have hflat : pieces.flatten = block := by simpa [Cut] using hcut
    rw [hflat] at heq
    exact .inl ⟨nw',heq⟩
  | cons x rest => exact .inr ⟨nw',_,heq⟩

def roundUp (size : ℕ) : ℕ := (size+(splitBlock-1)) / splitBlock*splitBlock

lemma roundUp_zero : roundUp 0 = 0 := rfl

lemma roundUp_of_le (h0 : 0 < n) (h : n ≤ splitBlock) : roundUp n = splitBlock := by
  have hb : splitBlock = 256 := rfl
  rw [roundUp,hb]
  omega

lemma roundUp_of_lt (h : splitBlock < n) : roundUp n = splitBlock+roundUp (n-splitBlock) := by
  have hb : splitBlock = 256 := rfl
  rw [roundUp,roundUp,hb]
  omega

lemma sectionLoop_dev {st st' : Section}
    (h : sectionLoop writes size fuel nw src s st = some (true,nw',st')) :
    (s < size → size ≤ s+src.length) ∧ st'.dev = st.dev ++ src.take (roundUp (size-s)) := by
  induction fuel generalizing nw src s st with
  | zero => cases h
  | succ fuel ih =>
    rw [sectionLoop] at h
    by_cases hs : s < size
    · rw [if_pos hs] at h
      obtain ⟨nw1,hd⟩ | ⟨nw1,part,hd⟩ := drain_put writes nw (src.take splitBlock) st
      · rw [hd] at h
        obtain ⟨hfile,hdev⟩ := ih h
        have hlen : size ≤ s+src.length := by
          rw [length_take,length_drop] at hfile
          omega
        refine ⟨fun _ => hlen,?_⟩
        rw [hdev,Section.progress_dev,length_take]
        show st.dev ++ src.take splitBlock ++ _ = _
        rw [append_assoc]
        congr 1
        by_cases hbig : splitBlock < size-s
        · rw [roundUp_of_lt hbig,take_add,min_eq_left (by omega),Nat.sub_add_eq]
        rw [roundUp_of_le (by omega) (Nat.le_of_not_lt hbig)]
        by_cases hfull : splitBlock ≤ src.length
        · rw [min_eq_left hfull,Nat.sub_eq_zero_of_le (by omega),roundUp_zero,take_zero,
            append_nil]
        · rw [drop_eq_nil_of_le (by omega),take_nil,append_nil]
      · rw [hd] at h
        cases h
    · rw [if_neg hs] at h
      cases h
      rw [Nat.sub_eq_zero_of_le (Nat.le_of_not_lt hs),roundUp_zero]
      simp [hs]

structure Section.Ahead (size s : ℕ) (st : Section) : Prop where
  inside : st.bar.inside = true
  marks : st.bar.c = 0 ∨ (st.bar.c-1)*(size / progressCount)+st.m+splitBlock ≤ s

lemma Section.Ahead.c_le (h : st.Ahead size s) (hs : s < size) : st.bar.c ≤ progressCount := by
  by_contra hc
  have hsize : size < progressCount*(size / progressCount)+progressCount :=
    Nat.lt_mul_div_succ size (by decide)
  have hmul : progressCount*(size / progressCount) ≤ (st.bar.c-1)*(size / progressCount) :=
    Nat.mul_le_mul_right _ (by omega)
  have hb : splitBlock = 256 ∧ progressCount = 32 := ⟨rfl,rfl⟩
  obtain h0 | hm := h.marks <;> omega

lemma Section.Ahead.inside_progress (h : st.Ahead size s) (hs : s < size) (block : Bytes) :
    ((st.put block).progress (size / progressCount)).bar.inside = true := by
  have hc := h.c_le hs
  rw [Section.progress]
  split
  · show (st.bar.inside && decide (st.bar.c < progressCount+1)) = true
    rw [h.inside,Bool.true_and,decide_eq_true_iff]
    omega
  · exact h.inside

lemma Section.Ahead.progress (h : st.Ahead size s) (hs : s < size) {block : Bytes}
    (hblock : block.length = splitBlock) :
    ((st.put block).progress (size / progressCount)).Ahead size (s+splitBlock) where
  inside := h.inside_progress hs block
  marks := by
    rw [Section.progress]
    split
    next hq =>
      right
      show st.bar.c*(size / progressCount)+0+splitBlock ≤ s+splitBlock
      have hm : (st.put block).m = st.m+splitBlock := by rw [← hblock]; rfl
      by_cases h0 : st.bar.c = 0
      · simp [h0]
      have hmarks := h.marks.resolve_left h0
      have hmul : st.bar.c*(size / progressCount) =
          (st.bar.c-1)*(size / progressCount)+size / progressCount := by
        rw [← Nat.succ_mul,Nat.succ_eq_add_one,Nat.sub_add_cancel (Nat.pos_of_ne_zero h0)]
      omega
    next hq =>
      have hm : (st.put block).m = st.m+splitBlock := by rw [← hblock]; rfl
      refine h.marks.imp_right fun hmarks => ?_
      rw [hm]
      show (st.bar.c-1)*_+(st.m+splitBlock)+splitBlock ≤ _
      omega

variable (writes) in
lemma sectionLoop_ends (hfile : size ≤ s+src.length) (hahead : s < size → st.Ahead size s)
    (hinside : st.bar.inside = true) (nw : ℕ) :
    ∃ ok nw' st', st'.bar.inside = true ∧ ∀ fuel > src.length,
      sectionLoop writes size fuel nw src s st = some (ok,nw',st') := by
  induction hn : src.length using Nat.strongRecOn generalizing nw src s st with
  | _ n ih =>
    subst hn
    by_cases hs : s < size
    · obtain ⟨nw1,hd⟩ | ⟨nw1,part,hd⟩ := drain_put writes nw (src.take splitBlock) st
      · have hb : splitBlock = 256 := rfl
        have hlen : (src.drop splitBlock).length < src.length := by
          rw [length_drop]
          omega
        have hnext : s+(src.take splitBlock).length < size →
            ((st.put (src.take splitBlock)).progress (size / progressCount)).Ahead size
              (s+(src.take splitBlock).length) := by
          intro hnext
          rw [length_take] at hnext ⊢
          have hfull : min splitBlock src.length = splitBlock := by omega
          rw [hfull]
          exact (hahead hs).progress hs (by rw [length_take,hfull])
        obtain ⟨ok,nw',st',hin,hrun⟩ := ih _ hlen (by rw [length_take,length_drop]; omega) hnext
          ((hahead hs).inside_progress hs _) nw1 rfl
        refine ⟨ok,nw',st',hin,fun fuel hfuel => ?_⟩
        obtain ⟨fuel,rfl⟩ := Nat.exists_eq_succ_of_ne_zero (show fuel ≠ 0 by omega)
        rw [sectionLoop,if_pos hs,hd]
        exact hrun fuel (by omega)
      · refine ⟨false,nw1,st.put part,hinside,fun fuel hfuel => ?_⟩
        obtain ⟨fuel,rfl⟩ := Nat.exists_eq_succ_of_ne_zero (show fuel ≠ 0 by omega)
        rw [sectionLoop,if_pos hs,hd]
    · refine ⟨true,nw,st,hinside,fun fuel hfuel => ?_⟩
      obtain ⟨fuel,rfl⟩ := Nat.exists_eq_succ_of_ne_zero (show fuel ≠ 0 by omega)
      rw [sectionLoop,if_neg hs]

lemma drain_put_of_writes (hwrites : ∀ n, writes n ≠ none) (nw : ℕ) (block : Bytes)
    (st : Section) : ∃ nw', drain writes Section.put nw block st = (true,nw',st.put block) := by
  refine (drain_put writes nw block st).resolve_right ?_
  rintro ⟨nw',part,hd⟩
  have hfst := drain_fst Section.put hwrites nw block st
  rw [hd] at hfst
  cases hfst

lemma sectionLoop_fst (hwrites : ∀ n, writes n ≠ none)
    (h : sectionLoop writes size fuel nw src s st = some r) : r.1 = true := by
  induction fuel generalizing nw src s st with
  | zero => cases h
  | succ fuel ih =>
    rw [sectionLoop] at h
    split at h
    · obtain ⟨nw1,hd⟩ := drain_put_of_writes hwrites nw (src.take splitBlock) st
      rw [hd] at h
      exact ih h
    · cases h
      rfl

lemma Section.finish_inside (h : st.bar.inside = true) : st.finish.bar.inside = true := by
  rw [Section.finish]
  split
  next hc =>
    show (st.bar.inside && decide (st.bar.c < progressCount+1)) = true
    rw [h,Bool.true_and,decide_eq_true_iff]
    omega
  · exact h

lemma copySection_dev (h : copySection writes size fuel nw m src = some (true,nw',st)) :
    size ≤ src.length ∧ st.dev = src.take (roundUp size) := by
  obtain ⟨⟨ok,nw1,st1⟩,hloop,heq⟩ := map_eq_some_iff.mp h
  cases ok with
  | false => cases heq
  | true =>
    cases heq
    obtain ⟨hfile,hdev⟩ := sectionLoop_dev hloop
    rw [Section.finish_dev,hdev]
    exact ⟨by omega,rfl⟩

def Ends {α : Type} (call : ℕ → Option α) (a : α) : Prop := ∃ k, ∀ fuel ≥ k, call fuel = some a

lemma Ends.bind {α β : Type} {call : ℕ → Option α} {f : ℕ → α → Option β} {a : α} {b : β}
    (ha : Ends call a) (hb : Ends (fun fuel => f fuel a) b) :
    Ends (fun fuel => (call fuel).bind (f fuel)) b := by
  obtain ⟨k,hk⟩ := ha
  obtain ⟨k',hk'⟩ := hb
  refine ⟨max k k',fun fuel hfuel => ?_⟩
  show (call fuel).bind (f fuel) = some b
  rw [hk fuel (by omega),bind_some]
  exact hk' fuel (by omega)

lemma Ends.map {α β : Type} {call : ℕ → Option α} {a : α} (ha : Ends call a) (f : α → β) :
    Ends (fun fuel => (call fuel).map f) (f a) := by
  obtain ⟨k,hk⟩ := ha
  exact ⟨k,fun fuel hfuel => congrArg (Option.map f) (hk fuel hfuel)⟩

lemma Ends.const {α : Type} (a : α) : Ends (fun _ => some a) a := ⟨0,fun _ _ => rfl⟩

lemma not_ends {α : Type} {call : ℕ → Option α} (h : ∀ fuel, call fuel = none) (a : α) :
    ¬ Ends call a := by
  rintro ⟨k,hk⟩
  have hk := hk k (le_refl k)
  rw [h k] at hk
  cases hk

lemma copySection_ends (writes : ℕ → Option ℕ) (hfile : size ≤ src.length) (nw m : ℕ) :
    ∃ ok nw' st, st.bar.inside = true ∧
      Ends (fun fuel => copySection writes size fuel nw m src) (ok,nw',st) := by
  have hstart : (⟨[],m,Bar.start⟩ : Section).Ahead size 0 := ⟨rfl,.inl rfl⟩
  obtain ⟨ok,nw',st,hinside,hrun⟩ :=
    sectionLoop_ends writes (Nat.le_trans hfile (Nat.le_add_left _ 0)) (fun _ => hstart) rfl nw
  refine ⟨ok,nw',if ok then st.finish else st,?_,src.length+1,fun fuel hfuel => ?_⟩
  · split
    · exact Section.finish_inside hinside
    · exact hinside
  · simp only [copySection,hrun fuel hfuel,map_some]
    cases ok <;> rfl

lemma copySection_fst (hwrites : ∀ n, writes n ≠ none)
    (h : copySection writes size fuel nw m src = some r) :
    r.1 = true := by
  obtain ⟨⟨ok,nw1,st1⟩,hloop,rfl⟩ := map_eq_some_iff.mp h
  have hok : ok = true := sectionLoop_fst hwrites hloop
  subst hok
  rfl

lemma copySection_eq_none (hfile : src.length < size) (hwrites : ∀ n, writes n ≠ none)
    (fuel nw m : ℕ) :
    copySection writes size fuel nw m src = none := by
  by_contra hne
  obtain ⟨⟨ok,nw',st⟩,h⟩ := ne_none_iff_exists'.mp hne
  obtain rfl : ok = true := copySection_fst hwrites h
  have := (copySection_dev h).1
  omega

end DslG624t.Upgrader
