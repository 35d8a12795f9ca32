import DslG624t.Adam2.Store
import DslG624t.Lib.Script

/-!
# The configuration device

`ticfg_dev.c` gives user space the part of the 64 KB configuration region behind the environment.
-/

namespace DslG624t.Ticfg

open CString
open Script (query acquire release)

def ticfgMtdSize : ℕ := 64*1024

def envVarMtdSize : ℕ := Adam2.flashEnvEntrySize*Adam2.maxEnvEntry

def cfgmanMtdOffset : ℕ := envVarMtdSize

def cfgmanMtdSize : ℕ := ticfgMtdSize-envVarMtdSize

def enomem : ℤ := 12

def efault : ℤ := 14

inductive Dir
  | read
  | write
  deriving DecidableEq

/-- What an access of the flash returns, with `*retlen`. -/
structure Transfer where
  ret : ℤ
  retlen : ℕ
  deriving DecidableEq

/-- What `mtd->read` of one entry leaves in `bytes_read` and in the buffer. -/
structure EntryRead where
  bytesRead : ℕ
  entry : Bytes
  deriving DecidableEq

/-- `flash` is the memory from the start of each slot on, where the flash is mapped;
`behindEntry` is what follows the scan buffer of `adam2_env_set_variable`. -/
inductive Query
  | mtdReady
  | getMtdDevice
  | kmalloc (size : ℕ)
  | copyToUser (len : ℕ)
  | copyFromUser (len : ℕ)
  | readEntry (i : ℕ)
  | writeEntry (i : ℕ) (entry : Bytes)
  | transfer (dir : Dir) (offset : ℤ) (count : ℕ)
  | erase
  | flash (base : ℕ)
  | behindEntry

abbrev Answer : Query → Type
  | .mtdReady => Bool
  | .getMtdDevice => Bool
  | .kmalloc _ => Bool
  | .copyToUser _ => Bool
  | .copyFromUser _ => Bool
  | .readEntry _ => EntryRead
  | .writeEntry _ _ => ℕ
  | .transfer _ _ _ => Transfer
  | .erase => ℤ
  | .flash _ => List Bytes
  | .behindEntry => Bytes

abbrev Call (α : Type) : Type := Script Query Answer α

def kmallocMax : ℕ := 131072

def kmalloc (size : ℕ) : Call Bool :=
  if kmallocMax < size then pure false else query (Query.kmalloc size)

def copyToUser (len : ℕ) : Call Bool := query (Query.copyToUser len)

def transfer (dir : Dir) (offset : ℤ) (count : ℕ) : Call Transfer :=
  query (Query.transfer dir offset count)

def toOffT (x : ℤ) : ℤ := x.bmod 0x100000000

@[irreducible]
def toLoffT (x : ℤ) : ℤ := x.bmod 0x10000000000000000

def toSizeT (x : ℤ) : ℕ := (x % 0x100000000).toNat

/-- The loop that both directions share: `*retlen` bytes are done and the rest is tried
again. It returns the error, or 0 and how many bytes were moved. -/
def mtdRegion (dir : Dir) : ℕ → ℤ → ℕ → ℕ → Call (ℤ × ℕ)
  | 0, _, count, done => if count = 0 then pure (0,done) else .spin
  | fuel+1, offset, count, done =>
    if count = 0 then pure (0,done)
    else do
      let t ← transfer dir offset count
      if t.ret ≠ 0 then pure (t.ret,done)
      else
        let n := min t.retlen count
        mtdRegion dir fuel (toOffT (offset+n)) (count-n) (done+n)

def ticfgReadMtdRegion (fuel : ℕ) (offset : ℤ) (count : ℕ) : Call (ℤ × ℕ) :=
  mtdRegion .read fuel offset count 0

def ticfgWriteMtdRegion (fuel : ℕ) (offset : ℤ) (count : ℕ) : Call (ℤ × ℕ) :=
  mtdRegion .write fuel offset count 0

/-- A request for `count` bytes at the file offset `ppos`. -/
structure Request where
  ppos : ℕ
  count : ℕ
  ppos_lt : ppos < 0x8000000000000000
  count_lt : count < 0x100000000

def Request.clamped (r : Request) : ℕ :=
  if toLoffT (r.ppos+r.count) > cfgmanMtdSize then toSizeT (cfgmanMtdSize-r.ppos)
  else r.count

def Request.offset (r : Request) : ℤ := toOffT (r.ppos+cfgmanMtdOffset)

/-- `ticfg_read`: what it returns and leaves in `*ppos`. -/
def ticfgRead (fuel : ℕ) (r : Request) : Call (ℤ × ℕ) := do
  let count := r.clamped
  if count = 0 then pure (0,r.ppos)
  else if !(← kmalloc count) then pure (-enomem,r.ppos)
  else
    acquire
    let (ret,retlen) ← ticfgReadMtdRegion fuel r.offset count
    if ret ≠ 0 then
      release
      pure (ret,r.ppos)
    else
      release
      if !(← copyToUser retlen) then pure (-efault,r.ppos+retlen)
      else pure (retlen,r.ppos+retlen)

def ticfgWrite (fuel : ℕ) (r : Request) : Call (ℤ × ℕ) := do
  let count := r.clamped
  if count = 0 then pure (0,r.ppos)
  else
    acquire
    let (ret,retlen) ← ticfgWriteMtdRegion fuel r.offset count
    if ret ≠ 0 then
      release
      pure (ret,r.ppos)
    else
      release
      pure (retlen,r.ppos+retlen)

def touched : Sigma Answer → Set ℤ
  | ⟨.transfer _ offset count,t⟩ => Set.Ico offset (offset+min t.retlen count)
  | ⟨.readEntry i,_⟩ => Set.Ico (Adam2.flashEnvEntrySize*i) (Adam2.flashEnvEntrySize*(i+1))
  | ⟨.writeEntry i _,_⟩ =>
    Set.Ico (Adam2.flashEnvEntrySize*i) (Adam2.flashEnvEntrySize*(i+1))
  | ⟨.erase,_⟩ => Set.Ico 0 ticfgMtdSize
  | _ => ∅

def Own (x : Sigma Answer) : Prop := touched x ⊆ Set.Ico (cfgmanMtdOffset : ℤ) ticfgMtdSize

def Isolated {α : Type} (call : ℕ → Call α) : Prop :=
  ∀ fuel dev, ∀ x ∈ (Script.run dev false 0 (call fuel)).answers, Own x

def InPart (offset : ℤ) (count : ℕ) : Prop :=
  (cfgmanMtdOffset : ℤ) ≤ offset ∧ offset+count ≤ ticfgMtdSize

variable {dir : Dir} {offset : ℤ} {count : ℕ} {r : Request}

lemma toOffT_of_lt {x : ℤ} (h0 : 0 ≤ x) (h : x < 0x80000000) : toOffT x = x :=
  Int.bmod_eq_of_le (by omega) (by omega)

lemma mtdRegion_own {fuel : ℕ} (h : InPart offset count) (done : ℕ) :
    Script.Each Own (mtdRegion dir fuel offset count done) := by
  have hpart : (cfgmanMtdOffset : ℤ) = 10240 ∧ (ticfgMtdSize : ℤ) = 65536 := ⟨rfl,rfl⟩
  induction fuel generalizing offset count done with
  | zero =>
    rw [mtdRegion]
    split <;> trivial
  | succ fuel ih =>
    obtain ⟨hlo,hhi⟩ := h
    rw [mtdRegion]
    split
    · trivial
    refine Script.Each.bind (Script.Each.query fun t => ?_) fun t => ?_
    · exact Set.Ico_subset_Ico hlo (by omega)
    split
    · trivial
    · refine ih ⟨?_,?_⟩ _
      all_goals
        rw [toOffT_of_lt (by omega) (by omega)]
        omega

lemma ticfgWrite_own (h : r.clamped = 0 ∨ InPart r.offset r.clamped) (fuel : ℕ) :
    Script.Each Own (ticfgWrite fuel r) := by
  rw [ticfgWrite]
  split
  · trivial
  next h0 =>
    refine Script.Each.bind trivial fun _ => ?_
    refine Script.Each.bind (mtdRegion_own (h.resolve_left h0) 0) fun (ret,retlen) => ?_
    dsimp only
    split <;> exact Script.Each.bind trivial fun _ => trivial

lemma ticfgRead_own (h : r.clamped = 0 ∨ kmallocMax < r.clamped ∨ InPart r.offset r.clamped)
    (fuel : ℕ) :
    Script.Each Own (ticfgRead fuel r) := by
  rw [ticfgRead]
  split
  · trivial
  next h0 =>
    rcases h.resolve_left h0 with hmax | hpart
    · rw [kmalloc,if_pos hmax]
      trivial
    refine Script.Each.bind ?_ fun ok => ?_
    · rw [kmalloc]
      split
      · trivial
      · exact Script.Each.query fun _ => Set.empty_subset _
    split
    · trivial
    refine Script.Each.bind trivial fun _ => ?_
    refine Script.Each.bind (mtdRegion_own hpart 0) fun (ret,retlen) => ?_
    dsimp only
    split
    · exact Script.Each.bind trivial fun _ => trivial
    · refine Script.Each.bind trivial fun _ => ?_
      refine Script.Each.bind (Script.Each.query fun _ => Set.empty_subset _) fun ok => ?_
      split <;> trivial

/-- Memory is there, and every access moves all that was asked for. -/
def willing : Script.Device Query Answer := fun _ q =>
  match q with
  | .mtdReady => true
  | .getMtdDevice => true
  | .kmalloc _ => true
  | .copyToUser _ => true
  | .copyFromUser _ => true
  | .readEntry _ => ⟨0,[]⟩
  | .writeEntry _ _ => 0
  | .transfer _ _ count => ⟨0,count⟩
  | .erase => 0
  | .flash _ => []
  | .behindEntry => []

lemma mtdRegion_asks (h : count ≠ 0) (dir : Dir) (offset : ℤ) (busy : Bool) (n : ℕ) :
    ⟨.transfer dir offset count,⟨0,count⟩⟩ ∈
      (Script.run willing busy n (mtdRegion dir 1 offset count 0)).answers := by
  rw [mtdRegion,if_neg h]
  exact List.mem_cons_self

lemma not_own (h0 : count ≠ 0) (h : ¬ InPart offset count) :
    ¬ Own ⟨.transfer dir offset count,⟨0,count⟩⟩ := by
  intro hown
  have hlt : offset < offset+((min count count : ℕ) : ℤ) := by omega
  obtain ⟨hlo,hhi⟩ := (Set.Ico_subset_Ico_iff hlt).mp hown
  exact h ⟨hlo,by omega⟩

lemma ticfgWrite_asks (h0 : r.clamped ≠ 0) :
    ⟨.transfer .write r.offset r.clamped,⟨0,r.clamped⟩⟩ ∈
      (Script.run willing false 0 (ticfgWrite 1 r)).answers := by
  rw [ticfgWrite,if_neg h0,Script.run_acquire_bind]
  exact Script.mem_answers_bind (mtdRegion_asks h0 .write r.offset true 0) _

lemma ticfgRead_asks (h0 : r.clamped ≠ 0) (hmax : ¬ kmallocMax < r.clamped) :
    ⟨.transfer .read r.offset r.clamped,⟨0,r.clamped⟩⟩ ∈
      (Script.run willing false 0 (ticfgRead 1 r)).answers := by
  rw [ticfgRead,if_neg h0,kmalloc,if_neg hmax,Script.run_query_bind]
  refine List.mem_cons_of_mem _ ?_
  show _ ∈ (Script.run willing false 1 (acquire >>= _)).answers
  rw [Script.run_acquire_bind]
  exact Script.mem_answers_bind (mtdRegion_asks h0 .read r.offset true 1) _

lemma isolated_write_iff (r : Request) :
    (Isolated fun fuel => ticfgWrite fuel r) ↔ r.clamped = 0 ∨ InPart r.offset r.clamped := by
  constructor
  · intro h
    by_contra hc
    obtain ⟨h0,hpart⟩ := not_or.mp hc
    exact not_own h0 hpart (h 1 willing _ (ticfgWrite_asks h0))
  · exact fun h fuel dev => (ticfgWrite_own h fuel).run dev false 0

lemma isolated_read_iff (r : Request) :
    (Isolated fun fuel => ticfgRead fuel r) ↔
      r.clamped = 0 ∨ kmallocMax < r.clamped ∨ InPart r.offset r.clamped := by
  constructor
  · intro h
    by_contra hc
    obtain ⟨h0,hc⟩ := not_or.mp hc
    obtain ⟨hmax,hpart⟩ := not_or.mp hc
    exact not_own h0 hpart (h 1 willing _ (ticfgRead_asks h0 hmax))
  · exact fun h fuel dev => (ticfgRead_own h fuel).run dev false 0

def Request.Fits (r : Request) : Prop :=
  r.ppos+r.count < 0x8000000000000000 ∧ r.ppos % 0x100000000 ≤ cfgmanMtdSize

lemma Request.clamped_cases (r : Request) :
    (r.ppos+r.count ≤ cfgmanMtdSize ∧ r.clamped = r.count) ∨
    (cfgmanMtdSize < r.ppos+r.count ∧ r.ppos+r.count < 0x8000000000000000 ∧
      (r.clamped : ℤ) = (cfgmanMtdSize-r.ppos : ℤ) % 0x100000000) ∨
    (0x8000000000000000 ≤ r.ppos+r.count ∧ r.clamped = r.count) := by
  have hs : cfgmanMtdSize = 55296 := rfl
  have hp := r.ppos_lt
  have hc := r.count_lt
  rw [Request.clamped,toLoffT,toSizeT,Int.bmod_def]
  split <;> split <;> omega

/-- The count that comes out of the check is more than `kmalloc` can give. -/
def Request.Unreadable (r : Request) : Prop :=
  (0x8000000000000000 ≤ r.ppos+r.count ∧ kmallocMax < r.count) ∨
  (r.ppos+r.count < 0x8000000000000000 ∧ cfgmanMtdSize < r.ppos % 0x100000000 ∧
    r.ppos % 0x100000000+kmallocMax < 0x100000000+cfgmanMtdSize)

lemma Request.clamped_write (r : Request) :
    (r.clamped = 0 ∨ InPart r.offset r.clamped) ↔ r.Fits := by
  have hs : cfgmanMtdSize = 55296 ∧ cfgmanMtdOffset = 10240 ∧ ticfgMtdSize = 65536 :=
    ⟨rfl,rfl,rfl⟩
  have hp := r.ppos_lt
  have hc := r.count_lt
  have hcases := r.clamped_cases
  rw [InPart,Request.Fits,Request.offset,toOffT,Int.bmod_def]
  split <;> omega

lemma Request.clamped_read (r : Request) : kmallocMax < r.clamped ↔ r.Unreadable := by
  have hs : cfgmanMtdSize = 55296 ∧ kmallocMax = 131072 := ⟨rfl,rfl⟩
  have hp := r.ppos_lt
  have hc := r.count_lt
  have hcases := r.clamped_cases
  rw [Request.Unreadable]
  omega

theorem isolated_iff (r : Request) :
    ((Isolated fun fuel => ticfgRead fuel r) ↔ r.Fits ∨ r.Unreadable) ∧
      ((Isolated fun fuel => ticfgWrite fuel r) ↔ r.Fits) := by
  constructor
  · rw [isolated_read_iff,or_left_comm,r.clamped_read,r.clamped_write,or_comm]
  · rw [isolated_write_iff,r.clamped_write]

def wrapping : Request := ⟨0xffffd800,1,by decide,by decide⟩

theorem isolated_fails_wrapping :
    (∃ x ∈ (Script.run willing false 0 (ticfgRead 1 wrapping)).answers,
      touched x = Set.Ico 0 65536 ∧ ¬ Own x) ∧
    ∃ x ∈ (Script.run willing false 0 (ticfgWrite 1 wrapping)).answers,
      touched x = Set.Ico 0 65536 ∧ ¬ Own x := by
  have hc : wrapping.clamped = 65536 := by decide +kernel
  have ho : wrapping.offset = 0 := by decide +kernel
  have hr := @ticfgRead_asks wrapping (by omega) (by rw [hc]; decide)
  have hw := @ticfgWrite_asks wrapping (by omega)
  rw [hc,ho] at hr hw
  have hpart : ¬ InPart 0 65536 := fun h => absurd h.1 (by decide)
  exact ⟨⟨_,hr,rfl,not_own (by decide) hpart⟩,⟨_,hw,rfl,not_own (by decide) hpart⟩⟩

end DslG624t.Ticfg
