import DslG624t.Adam2.Log

/-!
# The Adam2 store as a map

An entry is chained to the one it replaces or unsets by its index.
-/

namespace DslG624t.Adam2

open CString List Option
open Env (CStr lit)

structure Log.Inv (log : Log) : Prop where
  fits : ∀ e ∈ log, e.Fits
  length_le : log.length ≤ maxEnvEntry
  last_iff : ∀ i v x, log.last i = some (.set i v x) ↔ log.live v = some (i,x)
  live_bounds : ∀ v i x, log.live v = some (i,x) → 1 ≤ i ∧ (i : ℤ) ≤ log.highest
  highest_nonneg : 0 ≤ log.highest
  highest_le : log.highest ≤ log.length

variable {e : Rec} {stack : Bytes} {log : Log}

lemma Log.Inv.nil : Log.Inv [] := by
  refine ⟨by simp,Nat.zero_le _,?_,?_,le_rfl,le_rfl⟩
  · intro i v x
    simp [Log.last,Log.live]
  · intro v i x h
    cases h

lemma Log.Inv.live_inj (hlog : log.Inv) {v w : CStr} {i : ℕ} {x y : CStr}
    (hv : log.live v = some (i,x)) (hw : log.live w = some (i,y)) : v = w := by
  have h := ((hlog.last_iff i v x).mpr hv).symm.trans ((hlog.last_iff i w y).mpr hw)
  cases h
  rfl

/-- The index for an entry of `v` belongs to `v` or to no variable. -/
structure Owner (log : Log) (v : CStr) (i : ℕ) : Prop where
  pos : 1 ≤ i
  le : (i : ℤ) ≤ log.highest+1
  alone : ∀ w y, log.live w = some (i,y) → w = v
  same : ∀ j y, log.live v = some (j,y) → j = i

lemma Log.Inv.owner (hlog : log.Inv) (v : CStr) : Owner log v (log.indexFor v) := by
  have h0 := hlog.highest_nonneg
  cases hv : log.live v with
  | none =>
    have hidx : log.indexFor v = (log.highest+1).toNat := by rw [Log.indexFor,hv]; rfl
    rw [hidx]
    refine ⟨by omega,by omega,?_,?_⟩
    · intro w y hw
      have := (hlog.live_bounds w _ y hw).2
      omega
    · intro j y hj
      rw [hv] at hj
      cases hj
  | some p =>
    obtain ⟨i,x⟩ := p
    have hidx : log.indexFor v = i := by rw [Log.indexFor,hv]; rfl
    obtain ⟨hpos,hle⟩ := hlog.live_bounds v i x hv
    rw [hidx]
    refine ⟨hpos,by omega,fun w y hw => hlog.live_inj hw hv,?_⟩
    intro j y hj
    rw [hv] at hj
    cases hj
    rfl

lemma Log.Inv.fits_append (hlog : log.Inv) (he : e.Fits) : ∀ e' ∈ log ++ [e], e'.Fits := by
  intro e' he'
  rcases mem_append.mp he' with he' | he'
  · exact hlog.fits e' he'
  · rw [mem_singleton.mp he']
    exact he

lemma length_append_le (hlen : log.length < maxEnvEntry) : (log ++ [e]).length ≤ maxEnvEntry := by
  rw [length_append,length_singleton]
  exact hlen

section Append

variable {v : CStr} {i : ℕ} (hi : Owner log v i)

include hi

lemma Log.Inv.append_set (hlog : log.Inv) {x : CStr} (hlen : log.length < maxEnvEntry)
    (hfits : (Rec.set i v x).Fits) : Log.Inv (log ++ [.set i v x]) := by
  have hlive : ∀ w, Log.live (log ++ [.set i v x]) w = if v = w then some (i,x) else log.live w :=
    fun w => Log.live_append ..
  have hhigh : Log.highest (log ++ [.set i v x]) = max log.highest i := Log.highest_append ..
  have hpos := hi.pos
  have hle := hi.le
  refine ⟨hlog.fits_append hfits,length_append_le hlen,?_,?_,?_,?_⟩
  · intro j w y
    rw [Log.last_append,hlive]
    by_cases hj : i = j
    · -- the new entry is the last one with its index
      subst hj
      rw [lastStep,if_pos (show (Rec.set i v x).idx = i from rfl)]
      constructor
      · rintro ⟨⟩
        exact if_pos rfl
      intro h
      split at h
      · next hvw =>
        subst hvw
        cases h
        rfl
      · next hvw => exact absurd (hi.alone w y h).symm hvw
    rw [lastStep,if_neg (show (Rec.set i v x).idx ≠ j from hj),hlog.last_iff]
    by_cases hvw : v = w
    · subst hvw
      rw [if_pos rfl]
      constructor
      · intro h
        exact absurd (hi.same j y h).symm hj
      · rintro ⟨⟩
        exact absurd rfl hj
    · rw [if_neg hvw]
  · intro w j y hw
    rw [hhigh]
    rw [hlive] at hw
    split at hw
    · cases hw
      exact ⟨hpos,le_max_right _ _⟩
    · obtain ⟨h1,h2⟩ := hlog.live_bounds w j y hw
      exact ⟨h1,h2.trans (le_max_left _ _)⟩
  · rw [hhigh]
    exact hlog.highest_nonneg.trans (le_max_left _ _)
  · rw [hhigh,length_append,length_singleton]
    have := hlog.highest_le
    push_cast
    omega

lemma Log.Inv.append_unset (hlog : log.Inv) (hlen : log.length < maxEnvEntry)
    (hfits : (Rec.unset i).Fits) : Log.Inv (log ++ [.unset i]) := by
  have hlive : ∀ w j y, Log.live (log ++ [.unset i]) w = some (j,y) ↔
      log.live w = some (j,y) ∧ j ≠ i := by
    intro w j y
    rw [Log.live_append,liveStep]
    cases hw : log.live w with
    | none => simp
    | some p =>
      by_cases hp : p.1 = i <;> simp [hp] <;> grind
  have hhigh : Log.highest (log ++ [.unset i]) =
      if (i : ℤ) = log.highest then (i : ℤ)-1 else log.highest := Log.highest_append ..
  have hpos := hi.pos
  refine ⟨hlog.fits_append hfits,length_append_le hlen,?_,?_,?_,?_⟩
  · intro j w y
    rw [Log.last_append,hlive,lastStep]
    by_cases hj : i = j
    · rw [if_pos (show (Rec.unset i).idx = j from hj)]
      simp [hj]
    · rw [if_neg (show (Rec.unset i).idx ≠ j from hj),hlog.last_iff]
      exact ⟨fun h => ⟨h,fun hji => hj hji.symm⟩,fun h => h.1⟩
  · intro w j y hw
    obtain ⟨hw,hne⟩ := (hlive w j y).mp hw
    obtain ⟨h1,h2⟩ := hlog.live_bounds w j y hw
    rw [hhigh]
    split <;> omega
  · rw [hhigh]
    have := hlog.highest_nonneg
    split <;> omega
  · rw [hhigh,length_append,length_singleton]
    have := hlog.highest_le
    push_cast
    split <;> omega

end Append

lemma Log.Inv.indexFor_lt (hlog : log.Inv) (v : CStr) (hlen : log.length < maxEnvEntry) :
    log.indexFor v < 256 := by
  have hle := (hlog.owner v).le
  have := hlog.highest_le
  have : maxEnvEntry = 80 := rfl
  omega

lemma Log.Inv.newIndex_eq (hlog : log.Inv) (v : CStr) :
    Scan.newIndex ⟨log.highest,(log.live v).map Prod.fst⟩ = UInt8.ofNat (log.indexFor v) := by
  have h0 := hlog.highest_nonneg
  cases hv : log.live v with
  | none =>
    rw [Log.indexFor,hv]
    apply UInt8.toNat_inj.mp
    show (UInt8.ofInt (log.highest+1)).toNat = (UInt8.ofNat (log.highest+1).toNat).toNat
    rw [UInt8.ofInt,UInt8.toNat_ofNat',UInt8.toNat_ofNat']
    omega
  | some p =>
    rw [Log.indexFor,hv]
    rfl

lemma Log.Inv.write (hlog : log.Inv) {var : CStr} {val : Option CStr}
    (he : (log.write stack var val).2 = some e) :
    Log.Inv (log ++ [e]) := by
  unfold Log.write at he
  split at he
  · cases he
  split at he
  · cases he
  next hlen =>
  have hlen : log.length < maxEnvEntry := Nat.lt_of_not_le hlen
  have hidx := hlog.indexFor_lt var hlen
  split at he
  · cases he
    exact hlog.append_unset (hlog.owner var) hlen hidx
  split at he
  · cases he
  · next hsize =>
    cases he
    exact hlog.append_set (hlog.owner var) hlen ⟨hidx,Nat.le_of_not_lt hsize⟩

lemma secondString_leftover (stack : Bytes) (log : Log) (hfull : maxEnvEntry ≤ log.length) :
    secondString (payload ((log.map Rec.encode).getLastD []) ++ stack) = leftover stack log := by
  obtain ⟨init,e,rfl⟩ : ∃ init e, log = init ++ [e] := by
    cases log using reverseRecOn with
    | nil => exact absurd hfull (by decide)
    | append_singleton init e => exact ⟨init,e,rfl⟩
  rw [leftover,if_neg (not_lt.mpr hfull),getLast?_concat,map_append,
    map_singleton,getLastD_concat,secondString_encode]
  cases e <;> rfl

lemma adam2EnvSetVariable_region (hlog : log.Inv) (stack : Bytes) (var : CStr)
    (val : Option CStr) :
    adam2EnvSetVariable stack log.region var (val.map Subtype.val) =
      ⟨(log.write stack var val).1,Log.region (log ++ (log.write stack var val).2.toList),
        (log.write stack var val).2.isSome⟩ := by
  rw [adam2EnvSetVariable,scanLoop_region var hlog.fits]
  by_cases hlen : log.length < maxEnvEntry
  · have hleft : secondString (payload erasedSlot ++ stack) = leftover stack log := by
      rw [secondString_erasedSlot,leftover,if_pos hlen]
    simp only [if_pos hlen,isSome_map,hleft,Log.write,if_neg (not_le.mpr hlen)]
    split
    · simp
    cases val with
    | none =>
      simp only [map_none,writeEntry,hlog.newIndex_eq var,toList_some,← region_set hlen]
      rfl
    | some v =>
      simp only [map_some,writeEntry,hlog.newIndex_eq var]
      split
      · simp
      · simp only [toList_some,← region_set hlen]
        rfl
  · have hfull : maxEnvEntry ≤ log.length := Nat.le_of_not_lt hlen
    simp only [if_neg hlen,isSome_map,secondString_leftover stack log hfull,Log.write,if_pos hfull]
    split <;> simp

def Op.write (log : Log) : Op → ℕ × Option Rec
  | .set stack var val => log.write stack var (some val)
  | .unset stack var => log.write stack var none

lemma result_region (hlog : log.Inv) (op : Op) :
    op.result log.region =
      ⟨(op.write log).1,Log.region (log ++ (op.write log).2.toList),(op.write log).2.isSome⟩ := by
  cases op with
  | set stack var val => exact adam2EnvSetVariable_region hlog stack var (some val)
  | unset stack var => exact adam2EnvSetVariable_region hlog stack var none

lemma Log.Inv.op (hlog : log.Inv) (op : Op) : Log.Inv (log ++ (op.write log).2.toList) := by
  cases he : (op.write log).2 with
  | none =>
    rw [toList_none,append_nil]
    exact hlog
  | some e =>
    cases op with
    | set stack var val => exact hlog.write he
    | unset stack var => exact hlog.write he

lemma exists_log (ops : List Op) : ∃ log : Log, log.Inv ∧ run erasedRegion ops = log.region := by
  induction ops using reverseRecOn with
  | nil => exact ⟨[],Log.Inv.nil,rfl⟩
  | append_singleton ops op ih =>
    obtain ⟨log,hlog,hrun⟩ := ih
    refine ⟨_,hlog.op op,?_⟩
    rw [run,foldl_append,foldl_cons,foldl_nil]
    rw [run] at hrun
    rw [hrun,result_region hlog]

lemma Log.value_append_set (log : Log) (i : ℕ) (v x w : CStr) :
    Log.value (log ++ [.set i v x]) w = if w = v then some x else log.value w := by
  rw [Log.value,Log.live_append,liveStep]
  by_cases hw : w = v
  · rw [if_pos hw.symm,if_pos hw]
    rfl
  · rw [if_neg (Ne.symm hw),if_neg hw]
    rfl

lemma Log.Inv.value_append_unset (hlog : log.Inv) (v w : CStr) :
    Log.value (log ++ [.unset (log.indexFor v)]) w = if w = v then none else log.value w := by
  have hown := hlog.owner v
  rw [Log.value,Log.live_append,liveStep,Log.value]
  cases hw : log.live w with
  | none => simp
  | some p =>
    obtain ⟨j,y⟩ := p
    by_cases hwv : w = v
    · subst hwv
      rw [if_pos rfl,if_pos (by rw [← hown.same j y hw]; rfl)]
      rfl
    · have hne : j ≠ log.indexFor v := by
        rintro rfl
        exact hwv (hown.alone w y hw)
      rw [if_neg hwv,if_neg (by simpa using hne)]

lemma Log.Inv.value_length (hlog : log.Inv) {v x : CStr} (hv : log.value v = some x) :
    v.1.length+x.1.length+2 ≤ flashEnvEntrySize-4 := by
  obtain ⟨⟨i,x'⟩,hlive,rfl⟩ := map_eq_some_iff.mp hv
  exact (hlog.fits _ (Log.mem_of_last ((hlog.last_iff i v x').mpr hlive))).2

def Op.var : Op → CStr
  | .set _ var _ => var
  | .unset _ var => var

def Op.val : Op → Option CStr
  | .set _ _ val => some val
  | .unset _ _ => none

lemma Log.Inv.value_write (hlog : log.Inv) {var : CStr} {val : Option CStr}
    (he : (log.write stack var val).2 = some e) (w : CStr) :
    Log.value (log ++ [e]) w = if w = var then val else log.value w := by
  unfold Log.write at he
  split at he
  · cases he
  split at he
  · cases he
  split at he
  · cases he
    exact hlog.value_append_unset var w
  · split at he
    · cases he
    · cases he
      exact Log.value_append_set ..

/-- A call behaves as on a map: a call that returns 0 puts (or removes) its variable and leaves
the others, and it writes to flash exactly where some lookup changes. -/
structure Op.Correct (r : Region) (op : Op) : Prop where
  own : (op.result r).ret = 0 →
    adam2EnvGetValue (op.result r).region op.var = op.val.map Subtype.val
  others : (op.result r).ret = 0 → ∀ w : CStr, w ≠ op.var →
    adam2EnvGetValue (op.result r).region w = adam2EnvGetValue r w
  wrote_iff : (op.result r).wrote = true ↔
    ∃ w : CStr, adam2EnvGetValue (op.result r).region w ≠ adam2EnvGetValue r w

lemma getValue_eq_iff {log log' : Log} (hlog : log.Inv) (hlog' : log'.Inv) (w : CStr) :
    adam2EnvGetValue log'.region w = adam2EnvGetValue log.region w ↔
      log'.value w = log.value w := by
  rw [adam2EnvGetValue_region w hlog.fits,adam2EnvGetValue_region w hlog'.fits]
  exact (map_injective Subtype.val_injective).eq_iff

section

variable (hlog : log.Inv)
include hlog

lemma getValue_eq_val (w : CStr) (val : Option CStr) :
    adam2EnvGetValue log.region w = val.map Subtype.val ↔ log.value w = val := by
  rw [adam2EnvGetValue_region w hlog.fits]
  exact (map_injective Subtype.val_injective).eq_iff

lemma correct_of_quiet {op : Op} (hquiet : (op.write log).2 = none) :
    op.Correct log.region ↔ ((op.write log).1 = 0 → log.value op.var = op.val) := by
  have hres : op.result log.region = ⟨(op.write log).1,log.region,false⟩ := by
    rw [result_region hlog,hquiet,toList_none,append_nil]
    rfl
  constructor
  · intro h hret
    have hown := h.own (by rw [hres]; exact hret)
    rw [hres] at hown
    exact (getValue_eq_val hlog _ _).mp hown
  intro h
  refine ⟨?_,?_,?_⟩ <;> rw [hres]
  · exact fun hret => (getValue_eq_val hlog _ _).mpr (h hret)
  · exact fun _ _ _ => rfl
  · simp

lemma correct_of_append {op : Op} (he : (op.write log).2 = some e) :
    op.Correct log.region ↔ log.value op.var ≠ op.val := by
  have hnew : Log.Inv (log ++ [e]) := by
    have h := hlog.op op
    rwa [he] at h
  have hvalue : ∀ w, Log.value (log ++ [e]) w = if w = op.var then op.val else log.value w := by
    cases op with
    | set stack var val => exact hlog.value_write he
    | unset stack var => exact hlog.value_write he
  have hres : op.result log.region = ⟨(op.write log).1,Log.region (log ++ [e]),true⟩ := by
    rw [result_region hlog,he]
    rfl
  constructor
  · intro h hsame
    obtain ⟨w,hw⟩ := h.wrote_iff.mp (by rw [hres])
    rw [hres] at hw
    refine hw ((getValue_eq_iff hlog hnew w).mpr ?_)
    rw [hvalue]
    split
    · next hwv => rw [hwv,hsame]
    · rfl
  intro h
  refine ⟨?_,?_,?_⟩ <;> rw [hres]
  · intro _
    rw [getValue_eq_val hnew,hvalue,if_pos rfl]
  · intro _ w hw
    rw [getValue_eq_iff hlog hnew,hvalue,if_neg hw]
  · refine iff_of_true rfl ⟨op.var,?_⟩
    rw [ne_eq,getValue_eq_iff hlog hnew,hvalue,if_pos rfl]
    exact Ne.symm h

def hasFree (r : Region) : Bool := r.any fun slot => decode slot = .free

def bufferValue (stack : Bytes) (r : Region) : Bytes :=
  if hasFree r then secondString stack
  else match r.getLast?.map decode with
    | some (.set _ _ val) => val
    | _ => []

/-- An unset finds its variable or a full region.  A set of a variable with another value does
not find the new value in the buffer, and a set of the current value finds it there or finds the
region full. -/
def Op.Fair (r : Region) : Op → Prop
  | .set stack var val => ∀ u, adam2EnvGetValue r var = some u →
    (bufferValue stack r = val → u = val) ∧
      (bufferValue stack r ≠ val → hasFree r = false ∨ u ≠ val)
  | .unset _ var => (adam2EnvGetValue r var).isSome ∨ hasFree r = false

lemma hasFree_region : hasFree log.region = decide (log.length < maxEnvEntry) := by
  have hset : ∀ e ∈ log, decode e.encode ≠ .free := by
    intro e he
    rw [decode_encode (hlog.fits e he)]
    cases e <;> simp [Rec.decoded]
  rw [Bool.eq_iff_iff,decide_eq_true_iff,hasFree,List.any_eq_true]
  constructor
  · rintro ⟨slot,hslot,hfree⟩
    rcases List.mem_append.mp hslot with hslot | hslot
    · obtain ⟨e,he,rfl⟩ := List.mem_map.mp hslot
      exact absurd (of_decide_eq_true hfree) (hset e he)
    · have := (List.mem_replicate.mp hslot).1
      omega
  · intro hlen
    refine ⟨erasedSlot,List.mem_append_right _ (List.mem_replicate.mpr ⟨by omega,rfl⟩),?_⟩
    exact decide_eq_true decode_erasedSlot

lemma bufferValue_region (stack : Bytes) : bufferValue stack log.region = leftover stack log := by
  rw [bufferValue,leftover,hasFree_region hlog]
  by_cases hlen : log.length < maxEnvEntry
  · rw [if_pos hlen,if_pos (decide_eq_true hlen)]
  have hregion : log.region = log.map Rec.encode := by
    rw [Log.region,Nat.sub_eq_zero_of_le (Nat.le_of_not_lt hlen),replicate_zero,append_nil]
  rw [if_neg hlen,if_neg (by simpa using hlen),hregion,getLast?_map]
  cases hlast : log.getLast? with
  | none => rfl
  | some e =>
    have hfits := hlog.fits e (mem_of_getLast? hlast)
    simp only [map_some,decode_encode hfits]
    cases e <;> rfl

lemma fair_set_iff (stack : Bytes) (var val : CStr) :
    (Op.set stack var val).Fair log.region ↔ ∀ u, log.value var = some u →
      (leftover stack log = val.1 → u = val) ∧
        (leftover stack log ≠ val.1 → maxEnvEntry ≤ log.length ∨ u ≠ val) := by
  rw [Op.Fair,bufferValue_region hlog,hasFree_region hlog,adam2EnvGetValue_region _ hlog.fits]
  cases log.value var with
  | none => simp
  | some u =>
    simp only [map_some,some.injEq,forall_eq',decide_eq_false_iff_not,not_lt]
    simp only [ne_eq,Subtype.ext_iff]

lemma fair_unset_iff (stack : Bytes) (var : CStr) :
    (Op.unset stack var).Fair log.region ↔
      (log.value var).isSome ∨ maxEnvEntry ≤ log.length := by
  rw [Op.Fair,hasFree_region hlog,adam2EnvGetValue_region _ hlog.fits]
  simp

end

lemma Log.isSome_value (log : Log) (var : CStr) :
    (log.value var).isSome = (log.live var).isSome := by
  rw [Log.value,isSome_map]

lemma correct_set_iff (hlog : log.Inv) (stack : Bytes) (var val : CStr) :
    (Op.set stack var val).Correct log.region ↔ (Op.set stack var val).Fair log.region := by
  rw [fair_set_iff hlog]
  have hwrite : (Op.set stack var val).write log = log.write stack var (some val) := rfl
  by_cases hsame : (log.live var).isSome ∧ val.1 = leftover stack log
  · -- the call returns at once
    have hw : log.write stack var (some val) = (0,none) := by
      rw [Log.write,if_pos ⟨hsame.1,congrArg some hsame.2⟩]
    rw [correct_of_quiet hlog (by rw [hwrite,hw]),hwrite,hw]
    rw [← Log.isSome_value,isSome_iff_exists] at hsame
    obtain ⟨⟨u,hu⟩,hval⟩ := hsame
    simp [Op.var,Op.val,hu,hval]
  have hne : ∀ u, log.value var = some u → leftover stack log ≠ val.1 := by
    intro u hu hval
    exact hsame ⟨by rw [← Log.isSome_value,hu]; rfl,hval.symm⟩
  have hw : log.write stack var (some val) =
      if maxEnvEntry ≤ log.length then (4,none)
      else if flashEnvEntrySize-4 < var.1.length+val.1.length+2 then (6,none)
      else (0,some (.set (log.indexFor var) var val)) := by
    rw [Log.write,if_neg (by simpa using hsame)]
    rfl
  by_cases hfull : maxEnvEntry ≤ log.length
  · rw [if_pos hfull] at hw
    rw [correct_of_quiet hlog (by rw [hwrite,hw]),hwrite,hw]
    exact iff_of_true (by simp) fun u hu => ⟨fun h => absurd h (hne u hu),fun _ => .inl hfull⟩
  rw [if_neg hfull] at hw
  by_cases hlong : flashEnvEntrySize-4 < var.1.length+val.1.length+2
  · -- a value that is too long is not the current one
    rw [if_pos hlong] at hw
    rw [correct_of_quiet hlog (by rw [hwrite,hw]),hwrite,hw]
    refine iff_of_true (by simp) fun u hu => ⟨fun h => absurd h (hne u hu),fun _ => .inr ?_⟩
    rintro rfl
    exact absurd (hlog.value_length hu) (not_le.mpr hlong)
  rw [if_neg hlong] at hw
  rw [correct_of_append hlog (by rw [hwrite,hw])]
  constructor
  · intro h u hu
    refine ⟨fun h' => absurd h' (hne u hu),fun _ => .inr ?_⟩
    rintro rfl
    exact h hu
  · intro h hu
    rcases (h val hu).2 (hne val hu) with h' | h'
    · exact hfull h'
    · exact h' rfl

lemma correct_unset_iff (hlog : log.Inv) (stack : Bytes) (var : CStr) :
    (Op.unset stack var).Correct log.region ↔ (Op.unset stack var).Fair log.region := by
  rw [fair_unset_iff hlog]
  have hw : (Op.unset stack var).write log =
      if maxEnvEntry ≤ log.length then (5,none)
      else (0,some (.unset (log.indexFor var))) := by
    rw [Op.write,Log.write,if_neg (by simp)]
    rfl
  by_cases hfull : maxEnvEntry ≤ log.length
  · rw [if_pos hfull] at hw
    rw [correct_of_quiet hlog (by rw [hw]),hw]
    exact iff_of_true (by simp) (.inr hfull)
  · rw [if_neg hfull] at hw
    rw [correct_of_append hlog (by rw [hw])]
    simp [Op.var,Op.val,hfull,isSome_iff_ne_none]

/-- In every region that the store reaches, a call behaves as on a map exactly where it is
fair. -/
theorem correct_iff (ops : List Op) (op : Op) :
    op.Correct (run erasedRegion ops) ↔ op.Fair (run erasedRegion ops) := by
  obtain ⟨log,hlog,hrun⟩ := exists_log ops
  rw [hrun]
  cases op with
  | set stack var val => exact correct_set_iff hlog stack var val
  | unset stack var => exact correct_unset_iff hlog stack var

/-- An unset of a variable that was never set writes to flash. -/
theorem correct_fails_unset : ¬ (Op.unset [] (lit "a")).Correct (run erasedRegion []) := by
  have h := correct_unset_iff Log.Inv.nil [] (lit "a")
  rw [fair_unset_iff Log.Inv.nil] at h
  intro hcorrect
  exact absurd (h.mp hcorrect) (by decide)

end DslG624t.Adam2
