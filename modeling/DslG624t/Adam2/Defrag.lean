import DslG624t.Adam2.Map

/-!
# Defragmentation of the Adam2 store

`adam2_env_defrag` reads the variables by index into memory, erases the region and sets them
again.
-/

namespace DslG624t.Adam2

open CString List Option
open Env (CStr lit letters)

def raw (p : CStr × CStr) : Bytes × Bytes := (p.1.1,p.2.1)

def Log.entryAt (log : Log) (i : ℕ) : Option (CStr × CStr) :=
  match log.last i with
  | some (.set _ v x) => some (v,x)
  | _ => none

variable {log : Log} {i n : ℕ} {v x : CStr} {p : CStr × CStr} {saved : List (CStr × CStr)}

lemma Log.last_index {e : Rec} (h : log.last i = some e) : e.idx = i := by
  induction log using reverseRecOn with
  | nil => cases h
  | append_singleton log e' ih =>
    rw [Log.last_append,lastStep] at h
    split at h
    · cases h
      assumption
    · exact ih h

lemma Log.Inv.entryAt_eq_some (hlog : log.Inv) :
    log.entryAt i = some (v,x) ↔ log.live v = some (i,x) := by
  rw [← hlog.last_iff,Log.entryAt]
  cases hlast : log.last i with
  | none => simp
  | some e =>
    cases e with
    | unset j => simp
    | set j w y =>
      obtain rfl : j = i := Log.last_index hlast
      simp

lemma adam2EnvGetVariable_entryAt (hlog : log.Inv) (i : ℕ) :
    adam2EnvGetVariable log.region i = (log.entryAt i).map fun p => p.1.1 := by
  rw [adam2EnvGetVariable_region i hlog.fits,Log.entryAt]
  cases log.last i with
  | none => rfl
  | some e => cases e <;> rfl

lemma collect_region (hlog : log.Inv) (is : List ℕ) :
    collect log.region is = some ((is.filterMap log.entryAt).map raw) := by
  induction is with
  | nil => rfl
  | cons i is ih =>
    rw [collect,adam2EnvGetVariable_entryAt hlog,filterMap_cons]
    cases hi : log.entryAt i with
    | none => exact ih
    | some p =>
      obtain ⟨v,x⟩ := p
      have hvalue : log.value v = some x := by
        rw [Log.value,hlog.entryAt_eq_some.mp hi]
        rfl
      simp only [map_some,adam2EnvGetValue_region v hlog.fits,hvalue,ih]
      rfl

def Log.addAll (log : Log) (saved : List (CStr × CStr)) : Log :=
  saved.foldl (fun log p => log ++ [.set (log.indexFor p.1) p.1 p.2]) log

structure Fresh (log : Log) (saved : List (CStr × CStr)) : Prop where
  nodup : (saved.map Prod.fst).Nodup
  unset : ∀ p ∈ saved, log.value p.1 = none
  fits : ∀ p ∈ saved, p.1.1.length+p.2.1.length+2 ≤ flashEnvEntrySize-4
  room : log.length+saved.length ≤ maxEnvEntry

lemma Fresh.tail (h : Fresh log (p :: saved)) :
    Fresh (log ++ [.set (log.indexFor p.1) p.1 p.2]) saved := by
  obtain ⟨hp,hnodup⟩ := nodup_cons.mp h.nodup
  refine ⟨hnodup,?_,fun q hq => h.fits q (mem_cons_of_mem p hq),?_⟩
  · intro q hq
    rw [Log.value_append_set,if_neg]
    · exact h.unset q (mem_cons_of_mem p hq)
    · intro heq
      exact hp (heq ▸ mem_map_of_mem hq)
  · have hroom := h.room
    simp only [length_append,length_cons,length_nil] at hroom ⊢
    omega

lemma Fresh.live_head (h : Fresh log (p :: saved)) : log.live p.1 = none := by
  have hunset := h.unset p mem_cons_self
  rwa [Log.value,map_eq_none_iff] at hunset

lemma Fresh.head (h : Fresh log (p :: saved)) (stack : Bytes) :
    log.write stack p.1 (some p.2) = (0,some (.set (log.indexFor p.1) p.1 p.2)) := by
  have hroom := h.room
  rw [length_cons] at hroom
  have hfits := h.fits p mem_cons_self
  rw [Log.write,if_neg (by simp [h.live_head]),if_neg (by omega),if_neg (by omega)]

lemma Fresh.inv (hlog : log.Inv) (h : Fresh log (p :: saved)) :
    Log.Inv (log ++ [.set (log.indexFor p.1) p.1 p.2]) := by
  have he : (log.write [] p.1 (some p.2)).2 = some (.set (log.indexFor p.1) p.1 p.2) := by
    rw [h.head]
  exact hlog.write he

lemma Log.Inv.addAll (hlog : log.Inv) (h : Fresh log saved) : Log.Inv (log.addAll saved) := by
  induction saved generalizing log with
  | nil => exact hlog
  | cons p saved ih => exact ih (h.inv hlog) h.tail

lemma restore_fresh (stack : ℕ → Bytes) (hlog : log.Inv) (h : Fresh log saved) (j : ℕ) :
    restore stack j log.region (saved.map raw) = Log.region (log.addAll saved) := by
  induction saved generalizing log j with
  | nil => rfl
  | cons p saved ih =>
    have hcall := adam2EnvSetVariable_region hlog (stack j) p.1 (some p.2)
    rw [h.head (stack j)] at hcall
    have hstep : restore stack j log.region ((p :: saved).map raw) =
        restore stack (j+1) (Log.region (log ++ [.set (log.indexFor p.1) p.1 p.2]))
          (saved.map raw) :=
      congrArg (fun res : Result => restore stack (j+1) res.region (saved.map raw)) hcall
    rw [hstep,ih (h.inv hlog) h.tail]
    rfl

lemma run_eq_restore (r : Region) (saved : List (CStr × CStr)) (j : ℕ) :
    run r (saved.map fun p : CStr × CStr => .set [] p.1 p.2) =
      restore (fun _ => []) j r (saved.map raw) := by
  induction saved generalizing r j with
  | nil => rfl
  | cons p saved ih => exact ih _ _

lemma addAll_value_notMem {w : CStr} (hw : w ∉ saved.map Prod.fst) :
    (log.addAll saved).value w = log.value w := by
  induction saved generalizing log with
  | nil => rfl
  | cons p saved ih =>
    rw [map_cons,mem_cons,not_or] at hw
    calc (log.addAll (p :: saved)).value w
      = Log.value (log ++ [.set (log.indexFor p.1) p.1 p.2]) w := ih hw.2
      _ = log.value w := by rw [Log.value_append_set,if_neg hw.1]

lemma Fresh.addAll_value (h : Fresh log saved) (hmem : (v,x) ∈ saved) :
    (log.addAll saved).value v = some x := by
  induction saved generalizing log with
  | nil => cases hmem
  | cons p saved ih =>
    rcases mem_cons.mp hmem with rfl | hmem
    · have hnot : v ∉ saved.map Prod.fst := (nodup_cons.mp h.nodup).1
      calc (log.addAll ((v,x) :: saved)).value v
        = Log.value (log ++ [.set (log.indexFor v) v x]) v := addAll_value_notMem hnot
        _ = some x := by rw [Log.value_append_set,if_pos rfl]
    · exact ih h.tail hmem

def Log.found (log : Log) : List (CStr × CStr) :=
  (List.range maxEnvEntry).filterMap log.entryAt

section
variable (hlog : log.Inv)
include hlog

lemma Log.Inv.mem_found : (v,x) ∈ log.found ↔ ∃ i < maxEnvEntry, log.live v = some (i,x) := by
  simp only [Log.found,mem_filterMap,mem_range,hlog.entryAt_eq_some]

lemma Log.Inv.nodup_filterMap {is : List ℕ} (his : is.Nodup) :
    ((is.filterMap log.entryAt).map Prod.fst).Nodup := by
  induction is with
  | nil => exact nodup_nil
  | cons i is ih =>
    obtain ⟨hi,his⟩ := nodup_cons.mp his
    rw [filterMap_cons]
    cases hentry : log.entryAt i with
    | none => exact ih his
    | some p =>
      obtain ⟨v,x⟩ := p
      refine nodup_cons.mpr ⟨?_,ih his⟩
      intro hmem
      obtain ⟨⟨w,y⟩,hq,rfl⟩ := mem_map.mp hmem
      obtain ⟨j,hj,hjentry⟩ := mem_filterMap.mp hq
      have hsame := (hlog.entryAt_eq_some.mp hentry).symm.trans (hlog.entryAt_eq_some.mp hjentry)
      cases hsame
      exact hi hj

lemma Log.Inv.fresh_found : Fresh [] log.found := by
  refine ⟨hlog.nodup_filterMap nodup_range,fun _ _ => rfl,?_,?_⟩
  · rintro ⟨v,x⟩ hp
    obtain ⟨i,-,hlive⟩ := hlog.mem_found.mp hp
    exact hlog.value_length (by rw [Log.value,hlive]; rfl)
  · have hle := length_filterMap_le log.entryAt (range maxEnvEntry)
    rw [length_range] at hle
    simpa [Log.found] using hle

lemma defrag_region (stack : ℕ → Bytes) (cfgman : Bytes) :
    adam2EnvDefrag stack ⟨log.region,cfgman⟩ =
      some ⟨Log.region (Log.addAll [] log.found),cfgman⟩ := by
  have hrestore := restore_fresh stack Log.Inv.nil hlog.fresh_found 0
  rw [adam2EnvDefrag,collect_region hlog]
  exact congrArg (fun r => some (Mtd.mk r cfgman)) hrestore

lemma defrag_value_of_lt (hlive : log.live v = some (i,x))
    (hi : i < maxEnvEntry) :
    Log.value (Log.addAll [] log.found) v = some x :=
  hlog.fresh_found.addAll_value (hlog.mem_found.mpr ⟨i,hi,hlive⟩)

lemma defrag_value_of_le (h : ∀ i x, log.live v = some (i,x) → maxEnvEntry ≤ i) :
    Log.value (Log.addAll [] log.found) v = none := by
  refine addAll_value_notMem fun hmem => ?_
  obtain ⟨⟨w,x⟩,hp,rfl⟩ := mem_map.mp hmem
  obtain ⟨i,hi,hlive⟩ := hlog.mem_found.mp hp
  exact absurd (h i x hlive) (not_le.mpr hi)

end

/-- A defragmentation returns and keeps every lookup. -/
def DefragKeeps (stack : ℕ → Bytes) (mtd : Mtd) : Prop :=
  ∃ mtd', adam2EnvDefrag stack mtd = some mtd' ∧
    ∀ v : CStr, adam2EnvGetValue mtd'.env v = adam2EnvGetValue mtd.env v

lemma defragKeeps_iff (hlog : log.Inv) (stack : ℕ → Bytes) (cfgman : Bytes) :
    DefragKeeps stack ⟨log.region,cfgman⟩ ↔ log.entryAt maxEnvEntry = none := by
  have hnew := Log.Inv.nil.addAll hlog.fresh_found
  have hkeeps : DefragKeeps stack ⟨log.region,cfgman⟩ ↔
      ∀ v, Log.value (Log.addAll [] log.found) v = log.value v := by
    simp only [DefragKeeps,defrag_region hlog,some.injEq,exists_eq_left',getValue_eq_iff hlog hnew]
  rw [hkeeps]
  constructor
  · intro h
    rw [eq_none_iff_forall_ne_some]
    rintro ⟨v,x⟩ hentry
    -- the variable at the last index is not among those found
    have hlive := hlog.entryAt_eq_some.mp hentry
    have hlost := defrag_value_of_le hlog (v := v) fun i y hi => by
      rw [hlive] at hi
      cases hi
      exact le_rfl
    have hsome := (h v).symm.trans hlost
    rw [Log.value,hlive] at hsome
    cases hsome
  intro hnone v
  cases hlive : log.live v with
  | none =>
    have hlost := defrag_value_of_le hlog (v := v) fun i y hi => by
      rw [hlive] at hi
      cases hi
    rw [hlost,Log.value,hlive]
    rfl
  | some p =>
    obtain ⟨i,x⟩ := p
    have hle : i ≤ maxEnvEntry := by
      have h1 := (hlog.live_bounds v i x hlive).2
      have h2 := hlog.highest_le
      have h3 := hlog.length_le
      omega
    have hne : i ≠ maxEnvEntry := by
      rintro rfl
      rw [hlog.entryAt_eq_some.mpr hlive] at hnone
      cases hnone
    rw [defrag_value_of_lt hlog hlive (lt_of_le_of_ne hle hne),Log.value,hlive]
    rfl

/-- Nothing is lost exactly where no variable has the last index. -/
theorem defrag_keeps_iff_index (ops : List Op) (stack : ℕ → Bytes) (cfgman : Bytes) :
    DefragKeeps stack ⟨run erasedRegion ops,cfgman⟩ ↔
      adam2EnvGetVariable (run erasedRegion ops) maxEnvEntry = none := by
  obtain ⟨log,hlog,hrun⟩ := exists_log ops
  rw [hrun,defragKeeps_iff hlog,adam2EnvGetVariable_entryAt hlog,map_eq_none_iff]

inductive Reach : Region → Prop
  | erased : Reach erasedRegion
  | op {r : Region} (h : Reach r) (op : Op) : Reach (op.result r).region
  | defrag {r : Region} (h : Reach r) {stack : ℕ → Bytes} {cfgman : Bytes} {mtd : Mtd}
    (hd : adam2EnvDefrag stack ⟨r,cfgman⟩ = some mtd) : Reach mtd.env

lemma Reach.exists_log {r : Region} (h : Reach r) : ∃ log : Log, log.Inv ∧ r = log.region := by
  induction h with
  | erased => exact ⟨[],Log.Inv.nil,rfl⟩
  | op h op ih =>
    obtain ⟨log,hlog,rfl⟩ := ih
    exact ⟨_,hlog.op op,by rw [result_region hlog]⟩
  | defrag h hd ih =>
    obtain ⟨log,hlog,rfl⟩ := ih
    rw [defrag_region hlog] at hd
    cases hd
    exact ⟨_,Log.Inv.nil.addAll hlog.fresh_found,rfl⟩

def manyVars (n : ℕ) : List (CStr × CStr) :=
  (List.range n).map fun i => (letters (i+1),lit "1")

lemma fresh_manyVars : Fresh [] (manyVars 80) :=
  ⟨by decide +kernel,by decide +kernel,by decide +kernel,by decide +kernel⟩

/-- Eighty variables fill the region, and the last one is lost. -/
theorem defrag_fails_eighty :
    ¬ DefragKeeps (fun _ => [])
      ⟨run erasedRegion ((manyVars 80).map fun p => .set [] p.1 p.2),[]⟩ := by
  have hrun : run erasedRegion ((manyVars 80).map fun p => .set [] p.1 p.2) =
      Log.region (Log.addAll [] (manyVars 80)) :=
    (run_eq_restore _ _ 0).trans (restore_fresh _ Log.Inv.nil fresh_manyVars 0)
  rw [hrun,defragKeeps_iff (Log.Inv.nil.addAll fresh_manyVars)]
  decide +kernel

end DslG624t.Adam2
