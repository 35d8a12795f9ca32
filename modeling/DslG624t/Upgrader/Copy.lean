import DslG624t.Lib.Pieces
import DslG624t.Upgrader.Progress

/-!
# Copying a file

`nsp_upg_msg_copy` of the upgrader reads a file in blocks of up to 512 bytes and writes each in as
many calls as it takes.
-/

namespace DslG624t.Upgrader

open CString List
open Pieces (Cut drain drain_pieces)

/-- The bytes written, `m`, the bar, and the bars printed so far. -/
structure Copy where
  dst : Bytes
  m : ℕ
  bar : Bar
  prints : List Bar
  deriving DecidableEq

def Copy.put (quota : ℕ) (st : Copy) (piece : Bytes) : Copy :=
  let m := st.m+piece.length
  if quota ≤ m then ⟨st.dst ++ piece,0,st.bar.mark,st.prints ++ [st.bar.mark]⟩
  else ⟨st.dst ++ piece,m,st.bar,st.prints⟩

def Copy.finish (st : Copy) : Copy :=
  if st.bar.c ≤ progressCount then
    { st with bar := st.bar.put, prints := st.prints ++ [st.bar.put] }
  else st

def copyBlock : ℕ := 512

def readLen (k len : ℕ) : ℕ := min (k+1) (min copyBlock len)

/-- The loop over the blocks, with the calls of `read` and `write` made so far. It ends with a
`read` that gives nothing, be it at the end of the file or by an error. -/
def copyLoop (reads writes : ℕ → Option ℕ) (quota : ℕ) :
    ℕ → ℕ → ℕ → Bytes → Copy → Option (ℤ × Copy)
  | 0, _, _, _, _ => none
  | fuel+1, nr, nw, src, st =>
    match reads nr with
    | none => some (0,st.finish)
    | some k =>
      if readLen k src.length = 0 then some (0,st.finish)
      else match drain writes (Copy.put quota) nw (src.take (readLen k src.length)) st with
        | (false,_,st) => some (-1,st)
        | (true,nw,st) =>
          copyLoop reads writes quota fuel (nr+1) nw (src.drop (readLen k src.length)) st

structure Opens where
  fopen : Bool
  fseek : Bool
  openSrc : Bool
  openDst : Bool

def Copy.start : Copy := ⟨[],0,Bar.start,[]⟩

def fileSize (file : Bytes) : ℤ := if file.length < 0x80000000 then file.length else -1

def nspUpgMsgCopy (o : Opens) (file : Bytes) (reads writes : ℕ → Option ℕ) (fuel : ℕ) :
    Option (ℤ × Copy) :=
  if !o.fopen then some (-1,Copy.start)
  else if !o.fseek then some (-1,Copy.start)
  else if fileSize file < 0 then some (-1,Copy.start)
  else if !o.openSrc then some (-1,Copy.start)
  else if !o.openDst then some (-1,Copy.start)
  else copyLoop reads writes ((fileSize file).toNat / progressCount) fuel 0 0 file Copy.start

/-- The call ends; if it returns 0 the destination has the file; and what it printed were strings
inside the array. -/
def Meets (file : Bytes) (call : ℕ → Option (ℤ × Copy)) : Prop :=
  ∃ ret st, (∃ k, ∀ fuel ≥ k, call fuel = some (ret,st)) ∧ (ret = 0 → st.dst = file) ∧
    ∀ b ∈ st.prints, b.Shows

inductive Ended
  | done
  | readFailed
  | writeFailed
  deriving DecidableEq

/-- What the calls do, without the bar: the sizes of the writes, and how the copy ends. A `read` that
fails at the end of the file is no error. -/
def transfer (reads writes : ℕ → Option ℕ) : ℕ → ℕ → ℕ → Bytes → List ℕ → Ended × List ℕ
  | 0, _, _, _, sizes => (.done,sizes)
  | fuel+1, nr, nw, src, sizes =>
    if src.isEmpty then (.done,sizes)
    else match reads nr with
      | none => (.readFailed,sizes)
      | some k =>
        match drain writes (fun l piece => l ++ [piece.length]) nw
          (src.take (readLen k src.length)) sizes with
        | (false,_,sizes) => (.writeFailed,sizes)
        | (true,nw,sizes) =>
          transfer reads writes fuel (nr+1) nw (src.drop (readLen k src.length)) sizes

/-- The marks for writes of these sizes, `m` bytes after the last mark. -/
def marks (quota : ℕ) : ℕ → List ℕ → ℕ
  | _, [] => 0
  | m, n :: sizes =>
    if quota ≤ m+n then marks quota 0 sizes+1 else marks quota (m+n) sizes

variable {reads writes : ℕ → Option ℕ} {quota c k len : ℕ} {file : Bytes}
  {st : Copy} {o : Opens}

lemma readLen_eq_zero : readLen k len = 0 ↔ len = 0 := by
  rw [readLen,copyBlock]
  omega

lemma readLen_le (k len : ℕ) : readLen k len ≤ len := by
  rw [readLen]
  omega

/-- No `read` fails, and there are 31 marks at most, or 32 where a `write` fails. -/
def Spared (file : Bytes) : Ended × List ℕ → Prop
  | (.done,sizes) => marks (file.length / progressCount) 0 sizes < progressCount
  | (.readFailed,_) => False
  | (.writeFailed,sizes) => marks (file.length / progressCount) 0 sizes ≤ progressCount

def Ended.result : Ended → Copy → ℤ × Copy
  | .writeFailed, st => (-1,st)
  | _, st => (0,st.finish)

lemma foldl_sizes (pieces : List Bytes) (sizes : List ℕ) :
    pieces.foldl (fun l piece => l ++ [piece.length]) sizes = sizes ++ pieces.map length := by
  induction pieces generalizing sizes with
  | nil => simp
  | cons piece pieces ih => simp [ih]

variable (reads writes) in
/-- The calls cut the file into the same pieces for the copy and for `transfer`. -/
lemma copyLoop_pieces (src : Bytes) (nr nw : ℕ) :
    ∃ pieces rest e, Cut src pieces rest ∧ (e = .done → rest = []) ∧ (e = .readFailed → rest ≠ []) ∧
      ∀ fuel ≥ src.length,
        (∀ sizes, transfer reads writes fuel nr nw src sizes = (e,sizes ++ pieces.map length)) ∧
        ∀ quota st, copyLoop reads writes quota (fuel+1) nr nw src st =
          some (e.result (pieces.foldl (Copy.put quota) st)) := by
  induction hn : src.length using Nat.strongRecOn generalizing src nr nw with
  | _ n ih =>
    subst hn
    by_cases hsrc : src = []
    · subst hsrc
      refine ⟨[],[],.done,Cut.nil _,fun _ => rfl,nofun,fun fuel _ => ⟨fun sizes => ?_,fun quota st => ?_⟩⟩
      · cases fuel <;> simp [transfer]
      · rw [copyLoop]
        cases reads nr with
        | none => rfl
        | some k =>
          dsimp only
          exact if_pos (readLen_eq_zero.mpr rfl)
    have hpos : 0 < src.length := length_pos_iff.mpr hsrc
    have h0 (k : ℕ) : readLen k src.length ≠ 0 := mt readLen_eq_zero.mp hpos.ne'
    cases hr : reads nr with
    | none =>
      refine ⟨[],src,.readFailed,Cut.nil src,nofun,fun _ => hsrc,fun fuel hfuel => ?_⟩
      obtain ⟨fuel,rfl⟩ := Nat.exists_eq_succ_of_ne_zero (show fuel ≠ 0 by omega)
      refine ⟨fun sizes => ?_,fun quota st => ?_⟩
      · simp [transfer,hr,hsrc]
      · rw [copyLoop,hr]
        rfl
    | some k =>
      obtain ⟨pieces,rest,nw',hcut,heq⟩ :=
        drain_pieces writes nw (src.take (readLen k src.length))
      have hcut := hcut.extend (src.drop (readLen k src.length))
      rw [take_append_drop] at hcut
      cases rest with
      | cons x rest =>
        refine ⟨pieces,_,.writeFailed,hcut,nofun,nofun,fun fuel hfuel => ?_⟩
        obtain ⟨fuel,rfl⟩ := Nat.exists_eq_succ_of_ne_zero (show fuel ≠ 0 by omega)
        refine ⟨fun sizes => ?_,fun quota st => ?_⟩
        · simp only [transfer,List.isEmpty_iff,if_neg hsrc,hr,heq,foldl_sizes]
          rfl
        · simp only [copyLoop,hr,if_neg (h0 k),heq]
          rfl
      | nil =>
        have hlt : (src.drop (readLen k src.length)).length < src.length := by
          have := readLen_le k src.length
          have := h0 k
          rw [length_drop]
          omega
        obtain ⟨pieces',rest',e,hcut',hdone,hfailed,hrun⟩ :=
          ih _ hlt (src.drop (readLen k src.length)) (nr+1) nw' rfl
        refine ⟨pieces ++ pieces',rest',e,hcut.append hcut',hdone,hfailed,fun fuel hfuel => ?_⟩
        obtain ⟨fuel,rfl⟩ := Nat.exists_eq_succ_of_ne_zero (show fuel ≠ 0 by omega)
        obtain ⟨htransfer,hcopy⟩ := hrun fuel (by omega)
        refine ⟨fun sizes => ?_,fun quota st => ?_⟩
        · simp only [transfer,List.isEmpty_iff,if_neg hsrc,hr,heq,foldl_sizes]
          rw [map_append,← append_assoc]
          exact htransfer _
        · simp only [copyLoop.eq_def reads writes quota (_+1) nr,hr,if_neg (h0 k),heq,foldl_append]
          exact hcopy quota _

lemma Copy.put_dst (quota : ℕ) (st : Copy) (piece : Bytes) :
    (st.put quota piece).dst = st.dst ++ piece := by
  rw [Copy.put]
  split <;> rfl

lemma Copy.finish_dst (st : Copy) : st.finish.dst = st.dst := by
  rw [Copy.finish]
  split <;> rfl

lemma foldl_put_dst (pieces : List Bytes) (st : Copy) :
    (pieces.foldl (Copy.put quota) st).dst = st.dst ++ pieces.flatten := by
  induction pieces generalizing st with
  | nil => simp
  | cons piece pieces ih => simp [ih,Copy.put_dst]

lemma Copy.prints_put (st : Copy) (piece : Bytes) : st.prints ⊆ (st.put quota piece).prints := by
  rw [Copy.put]
  split
  · exact subset_append_left _ _
  · exact List.Subset.refl _

lemma prints_foldl_put (pieces : List Bytes) (st : Copy) :
    st.prints ⊆ (pieces.foldl (Copy.put quota) st).prints := by
  induction pieces generalizing st with
  | nil => exact List.Subset.refl _
  | cons piece pieces ih => exact List.Subset.trans (st.prints_put piece) (ih _)

/-- The bar stands at `c` marks, and what was printed were strings. -/
structure Copy.At (st : Copy) (c : ℕ) : Prop where
  le : c ≤ progressCount
  bar : st.bar = Bar.after c
  prints : ∀ b ∈ st.prints, b.Shows

lemma Copy.At.mark (h : st.At c) (hc : c < progressCount) (dst : Bytes) (m : ℕ) :
    Copy.At ⟨dst,m,st.bar.mark,st.prints ++ [st.bar.mark]⟩ (c+1) where
  le := hc
  bar := h.bar ▸ Bar.mark_after hc
  prints := by
    rw [h.bar,Bar.mark_after hc,forall_mem_append]
    exact ⟨h.prints,by simpa using Bar.shows_after (c+1)⟩

lemma Copy.At.foldl_put (h : st.At c) (pieces : List Bytes) :
    if c+marks quota st.m (pieces.map length) ≤ progressCount then
      (pieces.foldl (Copy.put quota) st).At (c+marks quota st.m (pieces.map length))
    else ∃ b ∈ (pieces.foldl (Copy.put quota) st).prints, ¬ b.Shows := by
  induction pieces generalizing c st with
  | nil =>
    rw [map_nil,marks,add_zero,if_pos h.le]
    exact h
  | cons piece pieces ih =>
    rw [map_cons,marks,foldl_cons,Copy.put]
    by_cases hfull : quota ≤ st.m+piece.length
    · simp only [if_pos hfull]
      by_cases hc : c < progressCount
      · rw [add_comm (marks _ _ _),← add_assoc]
        exact ih (h.mark hc _ 0)
      · -- the mark replaces the terminator
        obtain rfl : c = progressCount := le_antisymm h.le (Nat.le_of_not_lt hc)
        rw [if_neg (by omega),h.bar]
        refine ⟨_,prints_foldl_put _ _ (mem_append_right _ mem_cons_self),Bar.not_shows_put_full⟩
    · simp only [if_neg hfull]
      have hnext : Copy.At ⟨st.dst ++ piece,st.m+piece.length,st.bar,st.prints⟩ c :=
        ⟨h.le,h.bar,h.prints⟩
      exact ih hnext

lemma Copy.At.finish_iff (h : st.At c) : (∀ b ∈ st.finish.prints, b.Shows) ↔ c < progressCount := by
  have hc : st.bar.c ≤ progressCount := by
    rw [h.bar]
    exact h.le
  rw [Copy.finish,if_pos hc,h.bar,forall_mem_append]
  constructor
  · intro hall
    refine lt_of_le_of_ne h.le ?_
    rintro rfl
    exact Bar.not_shows_put_full (hall.2 _ mem_cons_self)
  · exact fun hlt => ⟨h.prints,by simpa using Bar.shows_put_after hlt⟩

lemma Copy.prints_finish (st : Copy) : st.prints ⊆ st.finish.prints := by
  rw [Copy.finish]
  split
  · exact subset_append_left _ _
  · exact List.Subset.refl _

def Opens.Ready (o : Opens) (file : Bytes) : Prop :=
  o.fopen = true ∧ o.fseek = true ∧ file.length < 0x80000000 ∧ o.openSrc = true ∧ o.openDst = true

lemma fileSize_neg : fileSize file < 0 ↔ ¬ file.length < 0x80000000 := by
  rw [fileSize]
  split <;> omega

lemma nspUpgMsgCopy_ready (h : o.Ready file) (reads writes : ℕ → Option ℕ) (fuel : ℕ) :
    nspUpgMsgCopy o file reads writes fuel =
      copyLoop reads writes (file.length / progressCount) fuel 0 0 file Copy.start := by
  obtain ⟨hfopen,hfseek,hlen,hsrc,hdst⟩ := h
  have hsize : fileSize file = file.length := if_pos hlen
  rw [nspUpgMsgCopy,if_neg (by simp [hfopen]),if_neg (by simp [hfseek]),
    if_neg (by rw [hsize]; omega),if_neg (by simp [hsrc]),if_neg (by simp [hdst]),hsize,
    Int.toNat_natCast]

lemma nspUpgMsgCopy_not_ready (h : ¬ o.Ready file) (reads writes : ℕ → Option ℕ) (fuel : ℕ) :
    nspUpgMsgCopy o file reads writes fuel = some (-1,Copy.start) := by
  rw [nspUpgMsgCopy]
  split
  · rfl
  split
  · rfl
  split
  · rfl
  split
  · rfl
  split
  · rfl
  · refine absurd ⟨?_,?_,?_,?_,?_⟩ h
    all_goals simp_all [fileSize_neg]

lemma Copy.at_start : Copy.start.At 0 := ⟨Nat.zero_le _,rfl,by simp [Copy.start]⟩

lemma meets_iff_of_ready (h : o.Ready file) (reads writes : ℕ → Option ℕ) :
    Meets file (nspUpgMsgCopy o file reads writes) ↔
      Spared file (transfer reads writes file.length 0 0 file []) := by
  obtain ⟨pieces,rest,e,hcut,hdone,hfailed,hrun⟩ := copyLoop_pieces reads writes file 0 0
  obtain ⟨quota,hquota⟩ : ∃ q, q = file.length / progressCount := ⟨_,rfl⟩
  obtain ⟨st,hst⟩ : ∃ st, st = pieces.foldl (Copy.put quota) Copy.start := ⟨_,rfl⟩
  have hcall (fuel : ℕ) (hfuel : file.length < fuel) :
      nspUpgMsgCopy o file reads writes fuel = some (e.result st) := by
    obtain ⟨fuel,rfl⟩ := Nat.exists_eq_succ_of_ne_zero (ne_zero_of_lt hfuel)
    rw [nspUpgMsgCopy_ready h,← hquota,hst]
    exact (hrun fuel (Nat.le_of_lt_succ hfuel)).2 quota _
  have hmeets : Meets file (nspUpgMsgCopy o file reads writes) ↔
      ((e.result st).1 = 0 → (e.result st).2.dst = file) ∧ ∀ b ∈ (e.result st).2.prints, b.Shows := by
    constructor
    · rintro ⟨ret,st',⟨k,hk⟩,hmeets⟩
      have heq := (hcall _ (by omega)).symm.trans (hk (k+file.length+1) (by omega))
      rw [Option.some.inj heq]
      exact hmeets
    · exact fun hmeets => ⟨_,_,⟨_,hcall⟩,hmeets⟩
  have hdst : st.dst ++ rest = file := by
    rw [hst,foldl_put_dst]
    exact hcut
  have hbar := @Copy.At.foldl_put quota _ _ Copy.at_start pieces
  rw [← hst,zero_add] at hbar
  rw [hmeets,(hrun _ (le_refl _)).1,nil_append]
  cases e with
  | readFailed =>
    refine iff_of_false (fun hall => hfailed rfl ?_) id
    have heq := hall.1 rfl
    simpa [Ended.result,Copy.finish_dst,← hdst] using heq
  | done =>
    have hall : st.dst = file := by simpa [hdone rfl] using hdst
    simp only [Ended.result,Copy.finish_dst,hall,implies_true,true_and,Spared,← hquota]
    split at hbar
    · exact hbar.finish_iff
    · next hmore =>
      obtain ⟨b,hb,hshows⟩ := hbar
      exact iff_of_false (fun h => hshows (h b (st.prints_finish hb))) fun h => hmore (le_of_lt h)
  | writeFailed =>
    simp only [Ended.result,Int.reduceNeg,neg_eq_zero,one_ne_zero,false_imp_iff,true_and,Spared,← hquota]
    split at hbar
    · next hle => exact iff_of_true hbar.prints hle
    · next hmore =>
      obtain ⟨b,hb,hshows⟩ := hbar
      exact iff_of_false (fun h => hshows (h b hb)) hmore

theorem msgCopy_meets_iff (o : Opens) (file : Bytes) (reads writes : ℕ → Option ℕ) :
    Meets file (nspUpgMsgCopy o file reads writes) ↔
      (o.Ready file → Spared file (transfer reads writes file.length 0 0 file [])) := by
  by_cases hready : o.Ready file
  · rw [meets_iff_of_ready hready]
    exact (imp_iff_right hready).symm
  refine iff_of_true ?_ fun h => absurd h hready
  refine ⟨-1,Copy.start,⟨0,fun fuel _ => nspUpgMsgCopy_not_ready hready _ _ fuel⟩,?_,?_⟩
  · exact fun h => absurd h (by decide)
  · exact fun b hb => absurd hb not_mem_nil

/-- The first `read` of a file of one byte fails; a file of 32 bytes is written byte by byte. -/
theorem msgCopy_fails :
    ¬ Meets [0x41] (nspUpgMsgCopy ⟨true,true,true,true⟩ [0x41] (fun _ => none)
      fun _ => some 511) ∧
    ¬ Meets (List.replicate 32 0x41) (nspUpgMsgCopy ⟨true,true,true,true⟩
      (List.replicate 32 0x41) (fun _ => some 511) fun _ => some 0) := by
  rw [meets_iff_of_ready (by simp [Opens.Ready]),meets_iff_of_ready (by simp [Opens.Ready])]
  have h32 : transfer (fun _ => some 511) (fun _ => some 0) 32 0 0 (replicate 32 0x41) [] =
      (.done,replicate 32 1) := by decide +kernel
  refine ⟨id,?_⟩
  rw [length_replicate,h32]
  exact not_lt_of_ge (by decide)

end DslG624t.Upgrader
