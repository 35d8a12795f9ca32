import DslG624t.Adam2.Map

/-!
# Indices and unsets

An unset leaves an entry without a name: all that ties it to its variable is the index.
-/

namespace DslG624t.Adam2

open CString List Option Prod
open Env (CStr lit)

def liveIndex (r : Region) (v : CStr) : Option ℕ := (valueLoop v none r).map fst

def Hides (r : Region) (i : ℕ) (w : CStr) : Prop :=
  ∃ k, (r[i]?).map decode = some (.unset k) ∧ liveIndex (r.take i) w = some k

/-- Unsetting the variable turns the free slot `i` into an unset entry. -/
def WritesTombstone (stack : Bytes) (r : Region) (v : CStr) (i : ℕ) : Prop :=
  (r[i]?).map decode = some .free ∧
    ∃ k, ((adam2EnvUnsetVariable stack r v).region[i]?).map decode = some (.unset k)

variable {log : Log} {i k : ℕ} {op : Op} {ops : List Op}

lemma getElem?_region_of_lt (h : i < log.length) : log.region[i]? = (log[i]?).map Rec.encode := by
  rw [Log.region,getElem?_append_left (by simpa using h),getElem?_map]

lemma getElem?_region_of_ge (h : log.length ≤ i) (hi : i < maxEnvEntry) :
    log.region[i]? = some erasedSlot := by
  rw [Log.region,getElem?_append_right (by simpa using h),
    getElem?_replicate_of_lt (by rw [length_map]; omega)]

lemma take_region (h : i ≤ log.length) : log.region.take i = (log.take i).map Rec.encode := by
  rw [Log.region,take_append_of_le_length (by simpa using h),map_take]

lemma decode_slot_iff (hlog : log.Inv) (i k : ℕ) :
    (log.region[i]?).map decode = some (.unset k) ↔ log[i]? = some (.unset k) := by
  by_cases hi : i < log.length
  · rw [getElem?_region_of_lt hi]
    have hmem : log[i] ∈ log := getElem_mem hi
    simp only [getElem?_eq_getElem hi,map_some,some.injEq,decode_encode (hlog.fits _ hmem)]
    cases log[i] with
    | set j v x => simp [Rec.decoded]
    | unset j => simp [Rec.decoded]
  have hnone : log[i]? = none := getElem?_eq_none (by omega)
  rw [hnone]
  by_cases hmax : i < maxEnvEntry
  · have herased := getElem?_region_of_ge (Nat.le_of_not_lt hi) hmax
    simp [herased,decode_erasedSlot]
  have hlen : log.region.length ≤ i := by
    have := hlog.length_le
    simp only [Log.region,length_append,length_map,length_replicate]
    omega
  simp [getElem?_eq_none hlen]

lemma liveIndex_encode (h : ∀ e ∈ log, e.Fits) (w : CStr) :
    liveIndex (log.map Rec.encode) w = (log.live w).map fst := by
  have hloop := valueLoop_log w none h []
  rw [append_nil] at hloop
  rw [liveIndex,show (none : Option (ℕ × Bytes)) = rawFound none from rfl,hloop]
  exact rawFound_index _

lemma liveIndex_region (h : ∀ e ∈ log, e.Fits) (w : CStr) :
    liveIndex log.region w = (log.live w).map fst := by
  have hloop := valueLoop_log w none h (replicate (maxEnvEntry-log.length) erasedSlot)
  rw [valueLoop_erased] at hloop
  rw [liveIndex,Log.region,show (none : Option (ℕ × Bytes)) = rawFound none from rfl,hloop]
  exact rawFound_index _

lemma hides_iff (hlog : log.Inv) (hi : log[i]? = some (.unset k)) (w : CStr) :
    Hides log.region i w ↔ (Log.live (log.take i) w).map fst = some k := by
  have hlt : i < log.length := (List.getElem?_eq_some_iff.mp hi).1
  have hfits : ∀ e ∈ log.take i, e.Fits := fun e he => hlog.fits e (mem_of_mem_take he)
  rw [Hides,take_region hlt.le,liveIndex_encode hfits]
  constructor
  · rintro ⟨k',hk',hlive⟩
    rw [decode_slot_iff hlog,hi] at hk'
    cases hk'
    exact hlive
  · exact fun hlive => ⟨k,(decode_slot_iff hlog i k).mpr hi,hlive⟩

lemma Log.Inv.live_indexFor_iff (hlog : log.Inv) (v w : CStr) :
    (log.live w).map fst = some (log.indexFor v) ↔ w = v ∧ (log.live v).isSome := by
  have hown := hlog.owner v
  constructor
  · intro h
    obtain ⟨⟨i,y⟩,hw,rfl⟩ := map_eq_some_iff.mp h
    obtain rfl := hown.alone w y hw
    exact ⟨rfl,by rw [hw]; rfl⟩
  · rintro ⟨rfl,h⟩
    obtain ⟨⟨i,y⟩,hw⟩ := isSome_iff_exists.mp h
    rw [hw,map_some,hown.same i y hw]

lemma getValue_isSome_iff (hlog : log.Inv) (v : CStr) :
    (adam2EnvGetValue log.region v).isSome ↔ (log.live v).isSome := by
  rw [adam2EnvGetValue_region v hlog.fits,Log.value,isSome_map,isSome_map]

lemma write_eq_unset (h : (op.write log).2 = some (.unset k)) :
    ∃ stack v, op = .unset stack v ∧ k = log.indexFor v ∧ log.length < maxEnvEntry := by
  cases op with
  | set stack v x =>
    simp only [Op.write,Log.write] at h
    split at h
    · cases h
    · split at h
      · cases h
      · split at h <;> cases h
  | unset stack v =>
    simp only [Op.write,Log.write] at h
    split at h
    · cases h
    split at h
    · cases h
    · next hlen =>
      cases h
      exact ⟨stack,v,rfl,rfl,by omega⟩

lemma run_append (ops : List Op) (op : Op) :
    run erasedRegion (ops ++ [op]) = (op.result (run erasedRegion ops)).region := by
  rw [run,foldl_append,foldl_cons,foldl_nil,run]

/-- What is to be shown of an unset entry in slot `i`: which call of the run wrote it, and that
it hides the variable of that call, if it was set. -/
def Explained (ops : List Op) (log : Log) (i : ℕ) : Prop :=
  ∃ before stack v after, ops = before ++ .unset stack v :: after ∧
    WritesTombstone stack (run erasedRegion before) v i ∧
    ∀ w, Hides log.region i w ↔
      w = v ∧ (adam2EnvGetValue (run erasedRegion before) v).isSome

lemma explained_last (hlog : log.Inv) (hrun : run erasedRegion ops = log.region)
    (h : (op.write log).2 = some (.unset k)) :
    Explained (ops ++ [op]) (log ++ [.unset k]) log.length := by
  obtain ⟨stack,v,rfl,rfl,hlen⟩ := write_eq_unset h
  have hnew : Log.Inv (log ++ [.unset (log.indexFor v)]) := by
    have hop := hlog.op (.unset stack v)
    rwa [h] at hop
  have hat : (log ++ [Rec.unset (log.indexFor v)])[log.length]? =
      some (.unset (log.indexFor v)) := getElem?_concat_length
  have hregion : (adam2EnvUnsetVariable stack log.region v).region =
      Log.region (log ++ [.unset (log.indexFor v)]) := by
    have hres := result_region hlog (.unset stack v)
    rw [h] at hres
    exact congrArg Result.region hres
  refine ⟨ops,stack,v,[],rfl,⟨?_,log.indexFor v,?_⟩,?_⟩
  · rw [hrun,getElem?_region_of_ge le_rfl hlen]
    rfl
  · rw [hrun,hregion]
    exact (decode_slot_iff hnew _ _).mpr hat
  · intro w
    rw [hides_iff hnew hat,take_left,hlog.live_indexFor_iff,hrun,getValue_isSome_iff hlog]

lemma Explained.step (h : Explained ops log i) (hlog : log.Inv) (op : Op)
    (hi : log[i]? = some (.unset k)) :
    Explained (ops ++ [op]) (log ++ (op.write log).2.toList) i := by
  obtain ⟨before,stack,v,after,hops,hwrites,hhides⟩ := h
  have hlt : i < log.length := (List.getElem?_eq_some_iff.mp hi).1
  have hi' : (log ++ (op.write log).2.toList)[i]? = some (.unset k) := by
    rw [List.getElem?_append_left hlt,hi]
  refine ⟨before,stack,v,after ++ [op],?_,hwrites,?_⟩
  · rw [hops,append_assoc,cons_append]
  · intro w
    rw [hides_iff (hlog.op op) hi',take_append_of_le_length hlt.le,← hides_iff hlog hi,hhides]

lemma exists_log_explained (ops : List Op) :
    ∃ log : Log, log.Inv ∧ run erasedRegion ops = log.region ∧
      ∀ i k, log[i]? = some (.unset k) → Explained ops log i := by
  induction ops using reverseRecOn with
  | nil =>
    refine ⟨[],Log.Inv.nil,rfl,?_⟩
    intro i k h
    cases h
  | append_singleton ops op ih =>
    obtain ⟨log,hlog,hrun,hall⟩ := ih
    refine ⟨log ++ (op.write log).2.toList,hlog.op op,?_,?_⟩
    · rw [run_append,hrun,result_region hlog]
    intro i k hi
    by_cases hlt : i < log.length
    · rw [getElem?_append_left hlt] at hi
      exact (hall i k hi).step hlog op hi
    -- Only the entry that this call appended is left.
    cases he : (op.write log).2 with
    | none =>
      rw [he,toList_none,append_nil,getElem?_eq_none (by omega)] at hi
      cases hi
    | some e =>
      rw [he] at hi
      have hieq : i = log.length := by
        have := (List.getElem?_eq_some_iff.mp hi).1
        rw [toList_some,length_append,length_singleton] at this
        omega
      subst hieq
      rw [toList_some,getElem?_concat_length] at hi
      cases hi
      exact explained_last hlog hrun he

/-- Over every run of sets and unsets: no two live variables share an index; every unset entry
was written by an unset of the run and hides the variable of that call if it was set then, and
nothing else; and what is set after the unsets is found. -/
theorem tombstones_of_run (ops : List Op) :
    (∀ v w i, liveIndex (run erasedRegion ops) v = some i →
      liveIndex (run erasedRegion ops) w = some i → v = w) ∧
    (∀ i k, ((run erasedRegion ops)[i]?).map decode = some (.unset k) →
      ∃ before stack v after, ops = before ++ .unset stack v :: after ∧
        WritesTombstone stack (run erasedRegion before) v i ∧
        ∀ w, Hides (run erasedRegion ops) i w ↔
          w = v ∧ (adam2EnvGetValue (run erasedRegion before) v).isSome) ∧
    (∀ stack v x, (Op.result (run erasedRegion ops) (.set stack v x)).wrote = true →
      adam2EnvGetValue (Op.result (run erasedRegion ops) (.set stack v x)).region v =
        some x.1) := by
  obtain ⟨log,hlog,hrun,hall⟩ := exists_log_explained ops
  rw [hrun]
  refine ⟨?_,?_,?_⟩
  · intro v w i hv hw
    rw [liveIndex_region hlog.fits] at hv hw
    obtain ⟨⟨j,x⟩,hlive,rfl⟩ := map_eq_some_iff.mp hv
    obtain ⟨⟨j',y⟩,hlive',hj⟩ := map_eq_some_iff.mp hw
    cases hj
    exact hlog.live_inj hlive hlive'
  · intro i k h
    exact hall i k ((decode_slot_iff hlog i k).mp h)
  intro stack v x hwrote
  rw [result_region hlog] at hwrote ⊢
  obtain ⟨e,he⟩ := isSome_iff_exists.mp hwrote
  have hvalue : Log.value (log ++ [e]) v = if v = v then some x else log.value v :=
    hlog.value_write he v
  have hnew := hlog.op (.set stack v x)
  rw [he,toList_some] at hnew ⊢
  rw [adam2EnvGetValue_region v hnew.fits,hvalue,if_pos rfl]
  rfl

end DslG624t.Adam2
