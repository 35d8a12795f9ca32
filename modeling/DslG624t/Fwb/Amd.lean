import DslG624t.Lib.Masks
import DslG624t.Lib.Stores

/-!
# The AMD flash driver

`flashop_amd_16.c` programs the flash word by word and erases it block by block.
-/

namespace DslG624t.Fwb

open Function List

structure Board where
  cs0Size : ℕ
  emifAsyncCs0 : ℕ
  -- the next window starts there
  cs0Size_le : cs0Size ≤ 0x4000000

def cs0Base : ℕ := 0xb0000000

namespace Board

def dual (b : Board) : Bool := b.emifAsyncCs0 &&& 2 ≠ 0

def devices (b : Board) : ℕ := if b.dual then 2 else 1

def block (b : Board) (x : ℕ) : ℕ :=
  if x < 0x10000*b.devices then x / (0x2000*b.devices) else x / (0x10000*b.devices)+7

def blockStart (b : Board) (k : ℕ) : ℕ :=
  if k < 8 then 0x2000*b.devices*k else 0x10000*b.devices*(k-7)

def InFlash (b : Board) (x : ℕ) : Prop := cs0Base ≤ x ∧ x < cs0Base+b.cs0Size

instance (b : Board) (x : ℕ) : Decidable (b.InFlash x) := inferInstanceAs (Decidable (_ ∧ _))

def eraseBlock (b : Board) (i : ℕ) (flash : ℕ → UInt8) : ℕ → UInt8 := fun x =>
  if b.InFlash x ∧ b.block (x-cs0Base) = b.block (i-cs0Base) then 0xff else flash x

lemma devices_cases (b : Board) :
    b.dual = false ∧ b.devices = 1 ∨ b.dual = true ∧ b.devices = 2 := by
  unfold devices
  cases b.dual <;> simp

end Board

def compl (x : ℕ) : ℕ := 0xffffffff-x

def program (flash : ℕ → UInt8) (adr n : ℕ) (data : ℕ → UInt8) : ℕ → UInt8 := fun x =>
  if adr ≤ x ∧ x < adr+n then flash x &&& data (x-adr) else flash x

lemma program_eq {f g : ℕ → UInt8} (hbelow : Stores.Below g f) {adr n : ℕ} {data : ℕ → UInt8}
    (hdata : ∀ i < n, data i = g (adr+i))
    (hout : ∀ x, ¬ (adr ≤ x ∧ x < adr+n) → g x = f x) : program f adr n data = g := by
  funext x
  unfold program
  by_cases hx : adr ≤ x ∧ x < adr+n
  · rw [if_pos hx,hdata _ (by omega),Nat.add_sub_cancel' hx.1,UInt8.and_comm,hbelow x]
  · rw [if_neg hx,hout x hx]

namespace Amd

structure State where
  flash : ℕ → UInt8
  fwbOpen : Bool

def fwbGetBlockSize (b : Board) (base : ℕ) : ℕ :=
  let base := base &&& 0x1fffffff ||| 0xa0000000
  if cs0Base ≤ base ∧ base < cs0Base+b.cs0Size then
    let base := base &&& 0x03ffffff
    let itmp := if base < 64*1024 then 8*1024 else 64*1024
    if b.emifAsyncCs0 &&& 2 ≠ 0 then itmp*2 else itmp
  else 0

/-- The loop of `FWBErase`: what it returns, and the addresses that it sends the command for a
block erase to. `complete` is the status `_FlashOperationComplete` returns for each of them. -/
def eraseLoop (b : Board) (complete : ℕ → ℕ) (last i : ℕ) : Bool × List ℕ :=
  if i < last then
    let blocksize := fwbGetBlockSize b i
    if blocksize = 0 then (false,[i])
    else if complete i = 0 then
      let rest := eraseLoop b complete last (i+blocksize)
      (rest.1, i :: rest.2)
    else (false,[i])
  else (true,[])
termination_by last-i

def fwbErase (b : Board) (complete : ℕ → ℕ) (s : State) (base size : ℕ) :
    Bool × List ℕ × State :=
  let s := { s with fwbOpen := false }
  if size = 0 then (false,[],s)
  else
    let size := size-1
    let blocksize := fwbGetBlockSize b base
    if blocksize = 0 then (false,[],s)
    else
      let first := base &&& compl (blocksize-1)
      let last := base+size
      let blocksize := fwbGetBlockSize b last
      if blocksize = 0 then (false,[],s)
      else
        let last := last ||| (blocksize-1)
        let r := eraseLoop b complete last first
        (r.1,r.2,{ s with flash := r.2.foldl (fun flash i => b.eraseBlock i flash) s.flash })

def fwbOpen (b : Board) (s : State) (base : ℕ) : Bool × State :=
  let s := { s with fwbOpen := false }
  if fwbGetBlockSize b base = 0 then (false,s) else (true,{ s with fwbOpen := true })

def fwbWriteByte (s : State) (adr : ℕ) (cVal : UInt8) : Bool × State :=
  if !s.fwbOpen then (false,s)
  else
    let isp := adr / 2*2
    let fwbwdata := fun j => if j = adr % 2 then cVal else s.flash (isp+j)
    let flash := program s.flash isp 2 fwbwdata
    (flash isp = fwbwdata 0 ∧ flash (isp+1) = fwbwdata 1,{ s with flash := flash })

def fwbClose (s : State) : Bool × State :=
  if !s.fwbOpen then (false,s) else (true,{ s with fwbOpen := false })

def sizeAt (b : Board) (x : ℕ) : ℕ := b.devices*if x < 0x10000 then 0x2000 else 0x10000

variable {k n x base : ℕ} {b : Board} {complete : ℕ → ℕ} {s : State} {ws : List (ℕ × UInt8)}

lemma fwbGetBlockSize_eq (b : Board) (hx : x < 0x4000000) :
    fwbGetBlockSize b (cs0Base+x) = if x < b.cs0Size then sizeAt b x else 0 := by
  have hand : (cs0Base+x) &&& 0x1fffffff = 0x10000000+x := by
    rw [show 0x1fffffff = 2 ^ 29-1 by rfl,Nat.and_two_pow_sub_one_eq_mod]
    unfold cs0Base
    omega
  have hor : (0x10000000+x) ||| 0xa0000000 = cs0Base+x := by
    rw [show 0xa0000000 = 5*2 ^ 29 by rfl,Masks.or_mul (by omega)]
    unfold cs0Base
    omega
  have hoff : (cs0Base+x) &&& 0x03ffffff = x := by
    rw [show 0x03ffffff = 2 ^ 26-1 by rfl,Nat.and_two_pow_sub_one_eq_mod]
    unfold cs0Base
    omega
  have hwindow : (cs0Base ≤ cs0Base+x ∧ cs0Base+x < cs0Base+b.cs0Size) ↔ x < b.cs0Size := by
    omega
  unfold fwbGetBlockSize
  dsimp only
  rw [hand,hor,hoff,if_congr hwindow rfl rfl]
  congr 1
  unfold sizeAt Board.devices Board.dual
  by_cases hd : b.emifAsyncCs0 &&& 2 ≠ 0
  · simp [hd,mul_comm]
  · simp [hd]

lemma fwbGetBlockSize_of_lt (h : x < b.cs0Size) : fwbGetBlockSize b (cs0Base+x) = sizeAt b x := by
  rw [fwbGetBlockSize_eq b (h.trans_le b.cs0Size_le),if_pos h]

lemma sizeAt_pos (b : Board) (x : ℕ) : 0 < sizeAt b x := by
  unfold sizeAt
  rcases b.devices_cases with ⟨-,hd⟩ | ⟨-,hd⟩ <;> rw [hd] <;> split <;> omega

lemma exists_sizeAt_eq_pow (b : Board) (x : ℕ) : ∃ k ≤ 17, sizeAt b x = 2 ^ k := by
  unfold sizeAt
  rcases b.devices_cases with ⟨-,hd⟩ | ⟨-,hd⟩ <;> rw [hd] <;> split
  · exact ⟨13,by omega,rfl⟩
  · exact ⟨16,by omega,rfl⟩
  · exact ⟨14,by omega,rfl⟩
  · exact ⟨17,by omega,rfl⟩

lemma cs0Base_add_div (hk : k ≤ 17) (x : ℕ) :
    (cs0Base+x) / 2 ^ k*2 ^ k = cs0Base+x / 2 ^ k*2 ^ k := by
  obtain ⟨c,hc⟩ : 2 ^ k ∣ cs0Base := (pow_dvd_pow 2 hk).trans ⟨22528,rfl⟩
  rw [hc,Nat.mul_add_div (Nat.two_pow_pos k),add_mul,mul_comm c]

lemma and_compl_sizeAt (b : Board) (y : ℕ) (hx : x < 0x4000000) :
    (cs0Base+x) &&& compl (sizeAt b y-1) =
      cs0Base+x / sizeAt b y*sizeAt b y := by
  obtain ⟨k,hk,hpow⟩ := exists_sizeAt_eq_pow b y
  have hlt : cs0Base+x < 2 ^ 32 := by
    unfold cs0Base
    omega
  rw [hpow,← cs0Base_add_div hk,← Masks.and_compl hlt]
  rfl

lemma or_sizeAt (b : Board) (y x : ℕ) :
    (cs0Base+x) ||| (sizeAt b y-1) =
      cs0Base+(x / sizeAt b y*sizeAt b y+(sizeAt b y-1)) := by
  obtain ⟨k,hk,hpow⟩ := exists_sizeAt_eq_pow b y
  rw [hpow,Masks.or_mask,cs0Base_add_div hk,add_assoc]

lemma commands_fwbErase (complete : ℕ → ℕ) (s : State) (hend : x+(n+1) ≤ b.cs0Size) :
    (fwbErase b complete s (cs0Base+x) (n+1)).2.1 =
      (eraseLoop b complete (cs0Base+((x+n) / sizeAt b (x+n)*sizeAt b (x+n)+(sizeAt b (x+n)-1)))
        (cs0Base+x / sizeAt b x*sizeAt b x)).2 := by
  have hsize := b.cs0Size_le
  have hfirst : fwbGetBlockSize b (cs0Base+x) = sizeAt b x :=
    fwbGetBlockSize_of_lt (by omega)
  have hlast : fwbGetBlockSize b (cs0Base+x+n) = sizeAt b (x+n) := by
    rw [add_assoc]
    exact fwbGetBlockSize_of_lt (by omega)
  unfold fwbErase
  simp only [Nat.add_one_ne_zero,if_false,Nat.add_sub_cancel,hfirst,hlast,(sizeAt_pos b _).ne']
  rw [and_compl_sizeAt b x (by omega),add_assoc,or_sizeAt]

section

variable (b : Board)

lemma block_eq_iff (x k : ℕ) : b.block x = k ↔ b.blockStart k ≤ x ∧ x < b.blockStart (k+1) := by
  unfold Board.block Board.blockStart
  rcases b.devices_cases with ⟨-,hd⟩ | ⟨-,hd⟩ <;> rw [hd] <;> split_ifs <;> omega

lemma blockStart_lt (k : ℕ) : b.blockStart k+1 < b.blockStart (k+1) := by
  unfold Board.blockStart
  rcases b.devices_cases with ⟨-,hd⟩ | ⟨-,hd⟩ <;> rw [hd] <;> split_ifs <;> omega

lemma blockStart_strictMono : StrictMono b.blockStart :=
  strictMono_nat_of_lt_succ fun k => (Nat.lt_succ_self _).trans (blockStart_lt b k)

@[simp]
lemma block_blockStart (k : ℕ) : b.block (b.blockStart k) = k :=
  (block_eq_iff b _ k).mpr ⟨le_rfl,(Nat.lt_succ_self _).trans (blockStart_lt b k)⟩

lemma blockStart_block_le (x : ℕ) : b.blockStart (b.block x) ≤ x :=
  ((block_eq_iff b x _).mp rfl).1

lemma lt_blockStart_block (x : ℕ) : x < b.blockStart (b.block x+1) :=
  ((block_eq_iff b x _).mp rfl).2

lemma block_mono : Monotone b.block := by
  intro x y hxy
  have h := (blockStart_block_le b x).trans_lt (hxy.trans_lt (lt_blockStart_block b y))
  exact Nat.lt_succ_iff.mp ((blockStart_strictMono b).lt_iff_lt.mp h)

lemma exists_block_iff (x n k : ℕ) :
    (∃ y, x ≤ y ∧ y ≤ x+n ∧ b.block y = k) ↔ b.block x ≤ k ∧ k ≤ b.block (x+n) := by
  constructor
  · rintro ⟨y,hxy,hyn,rfl⟩
    exact ⟨block_mono b hxy,block_mono b hyn⟩
  rintro ⟨hlo,hhi⟩
  have hstart : b.blockStart k ≤ x+n :=
    ((blockStart_strictMono b).monotone hhi).trans (blockStart_block_le b _)
  have hnext : x < b.blockStart (k+1) :=
    (lt_blockStart_block b x).trans_le ((blockStart_strictMono b).monotone (by omega))
  have hk := blockStart_lt b k
  exact ⟨max x (b.blockStart k),le_max_left _ _,max_le (by omega) hstart,
    (block_eq_iff b _ k).mpr ⟨le_max_right _ _,max_lt hnext (by omega)⟩⟩

end

lemma commands_eraseLoop_of_lt (hc : ∀ i, complete i = 0) {x last : ℕ} (hin : x < b.cs0Size)
    (h : x < last) :
    (eraseLoop b complete (cs0Base+last) (cs0Base+x)).2 =
      (cs0Base+x) :: (eraseLoop b complete (cs0Base+last) (cs0Base+(x+sizeAt b x))).2 := by
  rw [eraseLoop,if_pos (by omega)]
  simp only [fwbGetBlockSize_of_lt hin,(sizeAt_pos b _).ne',hc,if_true,if_false,add_assoc]

lemma commands_eraseLoop_of_le {x last : ℕ} (h : last ≤ x) :
    (eraseLoop b complete (cs0Base+last) (cs0Base+x)).2 = [] := by
  rw [eraseLoop,if_neg (by omega)]

lemma commands_eraseLoop (hc : ∀ i, complete i = 0)
    {last K : ℕ} (hin : b.blockStart K < b.cs0Size) (hK : b.blockStart K < last)
    (hlast : last ≤ b.blockStart K+sizeAt b (b.blockStart K)) (n k : ℕ) (hk : k+n = K)
    (hstep : ∀ j, k ≤ j → j < K → b.blockStart j+sizeAt b (b.blockStart j) = b.blockStart (j+1)) :
    (eraseLoop b complete (cs0Base+last) (cs0Base+b.blockStart k)).2 =
      (List.range' k (n+1)).map (cs0Base+b.blockStart ·) := by
  induction n generalizing k with
  | zero =>
    obtain rfl : k = K := by omega
    rw [commands_eraseLoop_of_lt hc hin hK,commands_eraseLoop_of_le hlast]
    rfl
  | succ n ih =>
    have hmono := (blockStart_strictMono b).monotone (show k ≤ K by omega)
    rw [commands_eraseLoop_of_lt hc (by omega) (by omega),hstep k le_rfl (by omega),
      ih (k+1) (by omega) fun j hj => hstep j (by omega)]
    rfl

def Regular (b : Board) (x : ℕ) : Prop := b.dual = false ∨ x < 0x10000 ∨ 0x20000 ≤ x

lemma Regular.sizeAt (h : Regular b x) :
    x / sizeAt b x*sizeAt b x = b.blockStart (b.block x) ∧
      b.blockStart (b.block x)+Amd.sizeAt b x = b.blockStart (b.block x+1) := by
  unfold Amd.sizeAt Board.block Board.blockStart
  rcases b.devices_cases with ⟨-,hd⟩ | ⟨hdual,hd⟩ <;> rw [hd]
  · split_ifs <;> omega
  · replace h := h.resolve_left (by simp [hdual])
    split_ifs <;> omega

lemma Regular.blockStart_add (h : Regular b (b.blockStart k)) :
    b.blockStart k+Amd.sizeAt b (b.blockStart k) = b.blockStart (k+1) := by
  have h' := h.sizeAt.2
  rwa [block_blockStart] at h'

def Exact (b : Board) (x n : ℕ) : Prop :=
  b.dual = false ∨ n = 0 ∨ 0x20000 ≤ x ∨ (x < 0x10000 ∧ x+n ≤ 0x14000)

lemma Exact.regular_first (h : Exact b x (n+1)) : Regular b x := by
  rcases h with h | h | h | h
  · exact .inl h
  · omega
  · exact .inr (.inr h)
  · exact .inr (.inl h.1)

lemma Exact.regular_blockStart {x n j : ℕ} (h : Exact b x (n+1)) (hlo : b.block x ≤ j)
    (hhi : j < b.block (x+n)) : Regular b (b.blockStart j) := by
  rcases b.devices_cases with ⟨hdual,-⟩ | ⟨hdual,hd⟩
  · exact .inl hdual
  replace h := h.resolve_left (by simp [hdual])
  right
  unfold Board.block at hlo hhi
  unfold Board.blockStart
  rw [hd] at hlo hhi ⊢
  split_ifs at hlo hhi ⊢ <;> omega

lemma Exact.last (h : Exact b x (n+1)) :
    b.blockStart (b.block (x+n)) <
      (x+n) / sizeAt b (x+n)*sizeAt b (x+n)+(sizeAt b (x+n)-1) ∧
      (x+n) / sizeAt b (x+n)*sizeAt b (x+n)+(sizeAt b (x+n)-1) ≤
        b.blockStart (b.block (x+n))+sizeAt b (b.blockStart (b.block (x+n))) := by
  unfold sizeAt Board.block Board.blockStart
  rcases b.devices_cases with ⟨-,hd⟩ | ⟨hdual,hd⟩ <;> rw [hd]
  · split_ifs <;> omega
  · replace h := h.resolve_left (by simp [hdual])
    split_ifs <;> omega

lemma commands_of_exact (hc : ∀ i, complete i = 0) (s : State) (hend : x+(n+1) ≤ b.cs0Size)
    (h : Exact b x (n+1)) :
    (fwbErase b complete s (cs0Base+x) (n+1)).2.1 =
      (List.range' (b.block x) (b.block (x+n)-b.block x+1)).map
        (cs0Base+b.blockStart ·) := by
  have hblocks : b.block x ≤ b.block (x+n) := block_mono b (by omega)
  have hstart := blockStart_block_le b (x+n)
  rw [commands_fwbErase complete s hend,h.regular_first.sizeAt.1]
  apply commands_eraseLoop hc (by omega) h.last.1 h.last.2 _ _ (by omega)
  intro j hlo hhi
  exact (h.regular_blockStart hlo hhi).blockStart_add

def Visited (x : ℕ) : Prop := x < 0x10000 ∧ 0x4000 ∣ x ∨ x = 0x10000 ∨ 0x30000 ≤ x

lemma Visited.next (hdual : b.dual = true) (h : Visited x) : Visited (x+sizeAt b x) := by
  have hd : b.devices = 2 := if_pos hdual
  unfold Visited sizeAt at *
  rw [hd]
  split_ifs <;> omega

lemma visited_of_mem_eraseLoop (hdual : b.dual = true) {last x i : ℕ} (hlast : last ≤ 0x4000000)
    (hx : Visited x) (hi : i ∈ (eraseLoop b complete (cs0Base+last) (cs0Base+x)).2) :
    ∃ y, i = cs0Base+y ∧ Visited y := by
  induction hm : last-x using Nat.strong_induction_on generalizing x with
  | _ m ih =>
    rw [eraseLoop] at hi
    by_cases hlt : x < last
    · rw [if_pos (by omega),fwbGetBlockSize_eq b (by omega)] at hi
      have hpos := sizeAt_pos b x
      by_cases hin : x < b.cs0Size
      · simp only [if_pos hin,hpos.ne',if_false] at hi
        by_cases hc : complete (cs0Base+x) = 0
        · rw [if_pos hc,add_assoc] at hi
          rcases mem_cons.mp hi with rfl | hi
          · exact ⟨x,rfl,hx⟩
          · exact ih _ (by omega) (hx.next hdual) hi rfl
        · rw [if_neg hc] at hi
          exact ⟨x,mem_singleton.mp hi,hx⟩
      · rw [if_neg hin] at hi
        exact ⟨x,mem_singleton.mp hi,hx⟩
    · rw [if_neg (by omega)] at hi
      cases hi

/-- The blocks that a call erases are those that the range meets. -/
def ErasesRange (b : Board) (complete : ℕ → ℕ) (s : State) (base size : ℕ) : Prop :=
  ∀ k, (∃ i ∈ (fwbErase b complete s base size).2.1, b.block (i-cs0Base) = k) ↔
    ∃ y ∈ Set.Ico base (base+size), b.block (y-cs0Base) = k

lemma exists_mem_Ico_iff (b : Board) (x n k : ℕ) :
    (∃ y ∈ Set.Ico (cs0Base+x) (cs0Base+x+(n+1)), b.block (y-cs0Base) = k) ↔
      b.block x ≤ k ∧ k ≤ b.block (x+n) := by
  rw [← exists_block_iff]
  constructor
  · rintro ⟨y,⟨hlo,hhi⟩,hk⟩
    exact ⟨y-cs0Base,by omega,by omega,hk⟩
  · rintro ⟨y,hlo,hhi,hk⟩
    exact ⟨cs0Base+y,⟨by omega,by omega⟩,by rwa [Nat.add_sub_cancel_left]⟩

lemma erasesRange_of_exact (hc : ∀ i, complete i = 0) (s : State) (hend : x+(n+1) ≤ b.cs0Size)
    (h : Exact b x (n+1)) :
    ErasesRange b complete s (cs0Base+x) (n+1) := by
  intro k
  have hblocks : b.block x ≤ b.block (x+n) := block_mono b (by omega)
  rw [commands_of_exact hc s hend h,exists_mem_Ico_iff]
  constructor
  · rintro ⟨i,hi,rfl⟩
    obtain ⟨j,hj,rfl⟩ := mem_map.mp hi
    rw [mem_range'_1] at hj
    rw [Nat.add_sub_cancel_left,block_blockStart]
    omega
  rintro ⟨hlo,hhi⟩
  refine ⟨cs0Base+b.blockStart k,mem_map.mpr ⟨k,?_,rfl⟩,?_⟩
  · rw [mem_range'_1]
    omega
  · rw [Nat.add_sub_cancel_left,block_blockStart]

lemma not_erasesRange_of_upper (hdual : b.dual = true) (hc : ∀ i, complete i = 0) (s : State)
    (hend : x+(n+1) ≤ b.cs0Size) (hlo : 0x10000 ≤ x) (hhi : x < 0x20000) :
    ¬ ErasesRange b complete s (cs0Base+x) (n+1) := by
  intro h
  have hd : b.devices = 2 := if_pos hdual
  have hfirst : x / sizeAt b x*sizeAt b x = 0 := by
    unfold sizeAt
    rw [hd,if_neg (by omega)]
    omega
  have hlast : 0 < (x+n) / sizeAt b (x+n)*sizeAt b (x+n)+(sizeAt b (x+n)-1) := by
    unfold sizeAt
    rw [hd]
    split_ifs <;> omega
  have hmem : cs0Base ∈ (fwbErase b complete s (cs0Base+x) (n+1)).2.1 := by
    rw [commands_fwbErase complete s hend,hfirst,commands_eraseLoop_of_lt hc (by omega) hlast]
    exact mem_cons_self
  have hzero := ((exists_mem_Ico_iff b x n _).mp ((h _).mp ⟨cs0Base,hmem,rfl⟩)).1
  unfold Board.block at hzero
  rw [hd] at hzero
  split_ifs at hzero <;> omega

lemma not_erasesRange_of_lower (hdual : b.dual = true) (s : State)
    (hend : x+(n+1) ≤ b.cs0Size) (hlo : x < 0x10000) (hhi : 0x14000 ≤ x+n) :
    ¬ ErasesRange b complete s (cs0Base+x) (n+1) := by
  intro h
  have hd : b.devices = 2 := if_pos hdual
  have hsize := b.cs0Size_le
  have hmeets : b.block x ≤ 5 ∧ 5 ≤ b.block (x+n) := by
    unfold Board.block
    rw [hd]
    split_ifs <;> omega
  obtain ⟨i,hi,hk⟩ := (h 5).mpr ((exists_mem_Ico_iff b x n 5).mpr hmeets)
  rw [commands_fwbErase complete s hend] at hi
  have hfirst : Visited (x / sizeAt b x*sizeAt b x) := by
    unfold Visited sizeAt
    rw [hd,if_pos hlo]
    omega
  have hlast : (x+n) / sizeAt b (x+n)*sizeAt b (x+n)+(sizeAt b (x+n)-1) ≤
      0x4000000 := by
    unfold sizeAt
    rw [hd,if_neg (by omega)]
    omega
  obtain ⟨y,rfl,hy⟩ := visited_of_mem_eraseLoop hdual hlast hfirst hi
  rw [Nat.add_sub_cancel_left] at hk
  unfold Board.block at hk
  unfold Visited at hy
  rw [hd] at hk
  split_ifs at hk <;> omega

/-- On a board with one chip every range is erased as it should be. On a board with two the
driver takes the boot blocks for half of what they are together. -/
theorem fwbErase_blocks_iff (b : Board) {complete : ℕ → ℕ} (hc : ∀ i, complete i = 0) (s : State)
    {base size : ℕ} (hbase : cs0Base ≤ base) (hend : base+size ≤ cs0Base+b.cs0Size) :
    ErasesRange b complete s base size ↔ Exact b (base-cs0Base) size := by
  obtain ⟨x,rfl⟩ := Nat.exists_eq_add_of_le hbase
  rw [Nat.add_sub_cancel_left]
  cases size with
  | zero =>
    refine iff_of_true (fun k => ?_) (.inr (.inl rfl))
    simp [fwbErase]
  | succ n =>
    have hend' : x+(n+1) ≤ b.cs0Size := by omega
    constructor
    · intro h
      rcases b.devices_cases with ⟨hdual,-⟩ | ⟨hdual,-⟩
      · exact .inl hdual
      by_cases hx : x < 0x10000
      · by_cases hn : x+(n+1) ≤ 0x14000
        · exact .inr (.inr (.inr ⟨hx,hn⟩))
        · exact absurd h (not_erasesRange_of_lower hdual s hend' hx (by omega))
      · by_cases hx' : 0x20000 ≤ x
        · exact .inr (.inr (.inl hx'))
        · exact absurd h (not_erasesRange_of_upper hdual hc s hend' (by omega) (by omega))
    · exact erasesRange_of_exact hc s hend'

def twoChips : Board := ⟨0x800000,2,by decide⟩

def closed : State := ⟨fun _ => 0xff,false⟩

theorem fwbErase_blocks_iff_large : ErasesRange twoChips (fun _ => 0) closed (cs0Base+0x20000) 1 :=
  (fwbErase_blocks_iff twoChips (fun _ => rfl) closed (by decide) (by decide)).mpr
    (.inr (.inr (.inl (by decide))))

/-- One byte of the fifth boot block: the four before it are erased as well. -/
theorem fwbErase_boot_blocks : ¬ ErasesRange twoChips (fun _ => 0) closed (cs0Base+0x10000) 1 :=
  not_erasesRange_of_upper rfl (fun _ => rfl) closed (by decide) (by decide) (by decide)

lemma fwbWriteByte_of_clears (hopen : s.fwbOpen = true) {adr : ℕ} {v : UInt8}
    (h : v &&& s.flash adr = v) :
    fwbWriteByte s adr v = (true,{ s with flash := update s.flash adr v }) := by
  have hdata : ∀ j < 2, (if j = adr % 2 then v else s.flash (adr / 2*2+j)) =
      update s.flash adr v (adr / 2*2+j) := by
    intro j hj
    by_cases hbyte : j = adr % 2
    · rw [if_pos hbyte,show adr / 2*2+j = adr by omega,update_self]
    · rw [if_neg hbyte,update_of_ne (by omega)]
  have hflash : program s.flash (adr / 2*2) 2
      (fun j => if j = adr % 2 then v else s.flash (adr / 2*2+j)) =
        update s.flash adr v := by
    apply program_eq (Stores.below_update h) hdata
    intro x hx
    exact update_of_ne (by omega) _ _
  have h0 := hdata 0 two_pos
  rw [add_zero] at h0
  unfold fwbWriteByte
  simp only [hopen,Bool.not_true,Bool.false_eq_true,if_false,hflash,add_zero,h0,
    hdata 1 one_lt_two,and_self,decide_true]

lemma fwbWriteByte_of_not_open (h : s.fwbOpen = false) (adr : ℕ) (v : UInt8) :
    fwbWriteByte s adr v = (false,s) := by
  unfold fwbWriteByte
  simp [h]

def writes (s : State) (ws : List (ℕ × UInt8)) : State :=
  ws.foldl (fun s w => (fwbWriteByte s w.1 w.2).2) s

def session (b : Board) (s : State) (base : ℕ) (ws : List (ℕ × UInt8)) : ℕ → UInt8 :=
  (fwbClose (writes (fwbOpen b s base).2 ws)).2.flash

/-- Every value that is written only clears bits of what the byte holds at that time. -/
def Clears : State → List (ℕ × UInt8) → Prop
  | _, [] => True
  | s, w :: ws => w.2 &&& s.flash w.1 = w.2 ∧ Clears (fwbWriteByte s w.1 w.2).2 ws

lemma clears_iff_onlyClears (hopen : s.fwbOpen = true) :
    Clears s ws ↔ Stores.OnlyClears s.flash ws := by
  induction ws generalizing s with
  | nil => exact Iff.rfl
  | cons w ws ih =>
    apply and_congr_right
    intro hw
    rw [fwbWriteByte_of_clears hopen hw]
    exact ih hopen

lemma writes_of_clears (hopen : s.fwbOpen = true) (h : Clears s ws) :
    writes s ws = { s with flash := Stores.content s.flash ws } := by
  induction ws generalizing s with
  | nil => rfl
  | cons w ws ih =>
    obtain ⟨hw,hws⟩ := h
    rw [fwbWriteByte_of_clears hopen hw] at hws
    rw [writes,foldl_cons,fwbWriteByte_of_clears hopen hw]
    refine ih ?_ hws
    exact hopen

lemma writes_of_not_open (h : s.fwbOpen = false) (ws : List (ℕ × UInt8)) : writes s ws = s := by
  induction ws with
  | nil => rfl
  | cons w ws ih =>
    rw [writes,foldl_cons,fwbWriteByte_of_not_open h]
    exact ih

@[simp] lemma flash_fwbClose (s : State) : (fwbClose s).2.flash = s.flash := by
  unfold fwbClose
  split <;> rfl

lemma fwbOpen_of_ne_zero (h : fwbGetBlockSize b base ≠ 0) (s : State) :
    fwbOpen b s base = (true,{ s with fwbOpen := true }) := by
  simp [fwbOpen,h]

lemma session_of_clears (hbase : fwbGetBlockSize b base ≠ 0)
    (h : Clears (fwbOpen b s base).2 ws) :
    session b s base ws = Stores.content s.flash ws := by
  rw [fwbOpen_of_ne_zero hbase] at h
  rw [session,flash_fwbClose,fwbOpen_of_ne_zero hbase,writes_of_clears rfl h]

lemma session_of_not_open (hbase : fwbGetBlockSize b base = 0) (s : State) (ws : List (ℕ × UInt8))
    : session b s base ws = s.flash := by
  have hopen : (fwbOpen b s base).2 = { s with fwbOpen := false } := by
    simp [fwbOpen,hbase]
  rw [session,flash_fwbClose,hopen,writes_of_not_open rfl]

end Amd

end DslG624t.Fwb
