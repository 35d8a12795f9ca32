import DslG624t.Ticfg.Calls

/-!
# The two areas of the configuration region

The environment and the configuration manager's part share their erase blocks. What an access
leaves behind that returns an error is not followed: the call returns that error.
-/

namespace DslG624t.Ticfg.Areas

structure Mem where
  flash : ℤ → UInt8
  kbuf : ℕ → UInt8

/-- `len` bytes between the region from `offset` on and the buffer from `kbuf` on. Writing can
only clear bits. -/
def Mem.move (m : Mem) (offset : ℤ) (kbuf len : ℕ) : Dir → Mem
  | .read =>
    { m with
      kbuf := fun k =>
        if kbuf ≤ k ∧ k < kbuf+len then m.flash (offset+(k-kbuf : ℕ)) else m.kbuf k }
  | .write =>
    { m with
      flash := fun x =>
        if offset ≤ x ∧ x < offset+len then m.flash x &&& m.kbuf (kbuf+(x-offset).toNat)
        else m.flash x }

def Mem.erase (m : Mem) : Mem :=
  { m with flash := fun x => if 0 ≤ x ∧ x < ticfgMtdSize then 0xff else m.flash x }

section

variable (dev : Script.Device Query Answer)

/-- The loop that both directions share, from the `n`th question on: what it returns, the number
of the next question, and the bytes. -/
def mtdRegion (dir : Dir) : ℕ → ℕ → ℤ → ℕ → ℕ → Mem → Option (ℤ × ℕ × Mem)
  | 0, n, _, count, _, m => if count = 0 then some (0,n,m) else none
  | fuel+1, n, offset, count, kbuf, m =>
    if count = 0 then some (0,n,m)
    else
      let t : Transfer := dev n (.transfer dir offset count)
      if t.ret ≠ 0 then some (t.ret,n+1,m)
      else
        let retlen := min t.retlen count
        mtdRegion dir fuel (n+1) (toOffT (offset+retlen)) (count-retlen) (kbuf+retlen)
          (m.move offset kbuf retlen dir)

def ticfgReadMtdRegion := mtdRegion dev .read

def ticfgWriteMtdRegion := mtdRegion dev .write

def kmalloc (n size : ℕ) : Bool × ℕ :=
  if kmallocMax < size then (false,n) else (dev n (.kmalloc size),n+1)

def ticfgEraseMtdRegion (n : ℕ) (m : Mem) : ℤ × ℕ × Mem :=
  let (mem,n) := kmalloc dev n Calls.sizeofEraseInfo
  if !mem then (-enomem,n,m)
  else
    let ret : ℤ := dev n .erase
    (ret,n+1,if ret = 0 then m.erase else m)

/-- The region is erased as a whole, and one of its two parts read before and written back. -/
def eraseKeeping (fuel offset size : ℕ) (m : Mem) : Option (ℤ × Mem) :=
  let (mem,n) := kmalloc dev 0 size
  if !mem then some (-enomem,m)
  else do
    let (ret,n,m) ← ticfgReadMtdRegion dev fuel n offset size 0 m
    if ret ≠ 0 then return (ret,m)
    else
      let (ret,n,m) := ticfgEraseMtdRegion dev n m
      if ret ≠ 0 then return (ret,m)
      else
        let (ret,_,m) ← ticfgWriteMtdRegion dev fuel n offset size 0 m
        return (ret,m)

def ticfgEraseCfgman (fuel : ℕ) : Mem → Option (ℤ × Mem) := eraseKeeping dev fuel 0 envVarMtdSize

def ticfgEraseEnvVars (fuel : ℕ) : Mem → Option (ℤ × Mem) :=
  eraseKeeping dev fuel cfgmanMtdOffset cfgmanMtdSize

end

variable {dev : Script.Device Query Answer} {fuel : ℕ}

lemma Mem.move_move (m : Mem) (dir : Dir) (offset : ℤ) (kbuf a b : ℕ) :
    (m.move offset kbuf a dir).move (offset+a) (kbuf+a) b dir =
      m.move offset kbuf (a+b) dir := by
  cases dir with
  | read =>
    simp only [Mem.move,Mem.mk.injEq,true_and]
    funext k
    by_cases h2 : kbuf+a ≤ k ∧ k < kbuf+a+b
    · have hoff : offset+a+((k-(kbuf+a) : ℕ) : ℤ) = offset+((k-kbuf : ℕ) : ℤ) := by
        omega
      rw [if_pos h2,if_pos (by omega),hoff]
    · rw [if_neg h2]
      by_cases h1 : kbuf ≤ k ∧ k < kbuf+a
      · rw [if_pos h1,if_pos (by omega)]
      · rw [if_neg h1,if_neg (by omega)]
  | write =>
    simp only [Mem.move,Mem.mk.injEq,and_true]
    funext x
    by_cases h2 : offset+a ≤ x ∧ x < offset+a+b
    · have hpos : kbuf+a+(x-(offset+a)).toNat = kbuf+(x-offset).toNat := by omega
      rw [if_pos h2,if_neg (by omega),if_pos (by push_cast; omega),hpos]
    · rw [if_neg h2]
      by_cases h1 : offset ≤ x ∧ x < offset+a
      · rw [if_pos h1,if_pos (by push_cast; omega)]
      · rw [if_neg h1,if_neg (by push_cast; omega)]

lemma Mem.move_zero (m : Mem) (dir : Dir) (offset : ℤ) (kbuf : ℕ) :
    m.move offset kbuf 0 dir = m := by
  cases dir with
  | read =>
    have hempty (k : ℕ) : ¬ (kbuf ≤ k ∧ k < kbuf+0) := by omega
    simp only [Mem.move,if_neg (hempty _)]
  | write =>
    have hempty (x : ℤ) : ¬ (offset ≤ x ∧ x < offset+(0 : ℕ)) := by omega
    simp only [Mem.move,if_neg (hempty _)]

/-- Every access that succeeds moves at least one byte, and no more than it was asked for. -/
def Moves (dev : Script.Device Query Answer) : Prop :=
  ∀ n dir offset count, 0 < count → (dev n (.transfer dir offset count)).ret = 0 →
    1 ≤ (dev n (.transfer dir offset count)).retlen ∧
      (dev n (.transfer dir offset count)).retlen ≤ count

lemma mtdRegion_spec (h : Moves dev) (dir : Dir) {offset : ℤ} {count : ℕ} (hfuel : count ≤ fuel)
    (h0 : 0 ≤ offset) (hend : offset+count ≤ ticfgMtdSize) (n kbuf : ℕ) (m : Mem) :
    ∃ ret n' m', mtdRegion dev dir fuel n offset count kbuf m = some (ret,n',m') ∧
      (ret = 0 → m' = m.move offset kbuf count dir) := by
  have hsize : (ticfgMtdSize : ℤ) = 65536 := rfl
  induction fuel generalizing offset count n kbuf m with
  | zero =>
    obtain rfl : count = 0 := by omega
    exact ⟨0,n,m,rfl,fun _ => (m.move_zero dir offset kbuf).symm⟩
  | succ fuel ih =>
    rw [mtdRegion]
    by_cases hc : count = 0
    · subst hc
      exact ⟨0,n,m,rfl,fun _ => (m.move_zero dir offset kbuf).symm⟩
    rw [if_neg hc]
    by_cases hret : (dev n (.transfer dir offset count)).ret = 0
    · obtain ⟨hpos,hle⟩ := h n dir offset count (by omega) hret
      have hmin : min (dev n (.transfer dir offset count)).retlen count =
          (dev n (.transfer dir offset count)).retlen := min_eq_left hle
      dsimp only
      rw [if_neg (not_not_intro hret),hmin,toOffT_of_lt (by omega) (by omega)]
      have hnext : offset+(dev n (.transfer dir offset count)).retlen +
          ((count-(dev n (.transfer dir offset count)).retlen : ℕ) : ℤ) ≤ ticfgMtdSize := by
        omega
      obtain ⟨ret,n',m',heq,hm⟩ := ih (by omega) (by omega) hnext (n+1)
        (kbuf+(dev n (.transfer dir offset count)).retlen)
        (m.move offset kbuf (dev n (.transfer dir offset count)).retlen dir)
      refine ⟨ret,n',m',heq,fun hr => ?_⟩
      rw [hm hr,Mem.move_move,Nat.add_sub_cancel' hle]
    · exact ⟨_,_,_,if_pos hret,fun hr => absurd hr hret⟩

lemma flash_restore (m : Mem) (offset size : ℕ) {x : ℤ} (h0 : 0 ≤ x) (hx : x < ticfgMtdSize) :
    (((m.move offset 0 size .read).erase).move offset 0 size .write).flash x =
      if (offset : ℤ) ≤ x ∧ x < offset+size then m.flash x else 0xff := by
  simp only [Mem.move,Mem.erase]
  by_cases hin : (offset : ℤ) ≤ x ∧ x < offset+size
  · have hback : (offset : ℤ)+(((0+(x-offset).toNat)-0 : ℕ) : ℤ) = x := by omega
    rw [if_pos hin,if_pos hin,if_pos ⟨h0,hx⟩,if_pos (by omega),hback]
    exact Flash.erased_and _
  · rw [if_neg hin,if_neg hin,if_pos ⟨h0,hx⟩]

lemma ticfgEraseMtdRegion_spec (dev : Script.Device Query Answer) (n : ℕ) (m : Mem) :
    ∃ ret n', ticfgEraseMtdRegion dev n m = (ret,n',if ret = 0 then m.erase else m) := by
  unfold ticfgEraseMtdRegion
  obtain ⟨mem,n'⟩ := kmalloc dev n Calls.sizeofEraseInfo
  cases mem with
  | false => exact ⟨-enomem,n',rfl⟩
  | true => exact ⟨_,_,rfl⟩

lemma eraseKeeping_spec (h : Moves dev) (offset size : ℕ) (hfuel : size ≤ fuel)
    (hend : offset+size ≤ ticfgMtdSize) (m : Mem) :
    ∃ ret m', eraseKeeping dev fuel offset size m = some (ret,m') ∧
      (ret = 0 → ∀ x : ℤ, 0 ≤ x → x < ticfgMtdSize →
        m'.flash x = if (offset : ℤ) ≤ x ∧ x < offset+size then m.flash x else 0xff) := by
  have hend' : (offset : ℤ)+size ≤ ticfgMtdSize := by exact_mod_cast hend
  unfold eraseKeeping
  cases hmem : (kmalloc dev 0 size).1 with
  | false =>
    refine ⟨-enomem,m,by simp [hmem],fun hr => absurd hr (by decide)⟩
  | true =>
    obtain ⟨ret,n,m1,hread,hm1⟩ :=
      mtdRegion_spec h .read hfuel (by omega) hend' (kmalloc dev 0 size).2 0 m
    simp only [hmem,Bool.not_true,Bool.false_eq_true,if_false,ticfgReadMtdRegion,hread,
      Option.bind_eq_bind,Option.bind_some]
    by_cases hret : ret = 0
    · obtain ⟨ret',n',herase⟩ := ticfgEraseMtdRegion_spec dev n m1
      rw [if_neg (not_not_intro hret),herase]
      by_cases hret' : ret' = 0
      · obtain ⟨ret'',n'',m2,hwrite,hm2⟩ :=
          mtdRegion_spec h .write hfuel (by omega) hend' n' 0 m1.erase
        refine ⟨ret'',m2,?_,?_⟩
        · simp only [hret',ticfgWriteMtdRegion]
          simp [hwrite]
        · intro hr x h0 hx
          rw [hm2 hr,hm1 hret,flash_restore m offset size h0 hx]
      · exact ⟨ret',m1,by simp [hret'],fun hr => absurd hr hret'⟩
    · exact ⟨ret,m1,by simp [hret],fun hr => absurd hr hret⟩

/-- Whatever the region holds and however the accesses cut the bytes, both calls return, and
where they return 0 one area is as it was and the other erased. -/
theorem erase_areas {dev : Script.Device Query Answer} (h : Moves dev) {fuel : ℕ}
    (hfuel : ticfgMtdSize ≤ fuel) (m : Mem) :
    (∃ ret m', ticfgEraseCfgman dev fuel m = some (ret,m') ∧ (ret = 0 →
        (∀ x ∈ Set.Ico (0 : ℤ) envVarMtdSize, m'.flash x = m.flash x) ∧
        ∀ x ∈ Set.Ico (cfgmanMtdOffset : ℤ) ticfgMtdSize, m'.flash x = 0xff)) ∧
    ∃ ret m', ticfgEraseEnvVars dev fuel m = some (ret,m') ∧
      (ret = 0 → (∀ x ∈ Set.Ico (cfgmanMtdOffset : ℤ) ticfgMtdSize, m'.flash x = m.flash x) ∧
        ∀ x ∈ Set.Ico (0 : ℤ) envVarMtdSize, m'.flash x = 0xff) := by
  have hsizes : envVarMtdSize = 10240 ∧ cfgmanMtdOffset = 10240 ∧ cfgmanMtdSize = 55296 ∧
      ticfgMtdSize = 65536 := ⟨rfl,rfl,rfl,rfl⟩
  obtain ⟨henv,hoff,hcfg,hall⟩ := hsizes
  constructor
  · obtain ⟨ret,m',heq,hm⟩ := eraseKeeping_spec h 0 envVarMtdSize (by omega : _ ≤ fuel)
      (by omega) m
    refine ⟨ret,m',heq,fun hr => ⟨?_,?_⟩⟩
    · rintro x ⟨h0,hx⟩
      rw [hm hr x h0 (by omega),if_pos (by omega)]
    · rintro x ⟨h0,hx⟩
      rw [hm hr x (by omega) hx,if_neg (by omega)]
  obtain ⟨ret,m',heq,hm⟩ := eraseKeeping_spec h cfgmanMtdOffset cfgmanMtdSize
    (by omega : _ ≤ fuel) (by omega) m
  refine ⟨ret,m',heq,fun hr => ⟨?_,?_⟩⟩
  · rintro x ⟨h0,hx⟩
    rw [hm hr x (by omega) hx,if_pos (by omega)]
  · rintro x ⟨h0,hx⟩
    rw [hm hr x h0 (by omega),if_neg (by omega)]

def halving : Script.Device Query Answer := fun n q =>
  match q with
  | .transfer _ _ count => ⟨0,(count+1) / 2⟩
  | q => willing n q

lemma moves_halving : Moves halving := by
  intro n dir offset count hpos _
  show 1 ≤ (count+1) / 2 ∧ (count+1) / 2 ≤ count
  omega

theorem erase_areas_halving :
    ∃ m', ticfgEraseCfgman halving 65536 ⟨fun _ => 0x42,fun _ => 0⟩ = some (0,m') ∧
      (∀ x ∈ Set.Ico (0 : ℤ) envVarMtdSize, m'.flash x = 0x42) ∧
      ∀ x ∈ Set.Ico (cfgmanMtdOffset : ℤ) ticfgMtdSize, m'.flash x = 0xff := by
  obtain ⟨ret,m',heq,hm⟩ :=
    (erase_areas moves_halving (le_refl ticfgMtdSize) ⟨fun _ => 0x42,fun _ => 0⟩).1
  have hret : (ticfgEraseCfgman halving ticfgMtdSize ⟨fun _ => 0x42,fun _ => 0⟩).map Prod.fst =
      some 0 := by decide +kernel
  rw [heq] at hret
  obtain rfl : ret = 0 := Option.some.inj hret
  exact ⟨m',heq,hm rfl⟩

end DslG624t.Ticfg.Areas
