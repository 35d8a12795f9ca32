import DslG624t.Adam2.Store

/-!
# The store as a log of entries

A region that was written by the store alone is the encoding of a list of entries, followed by
erased slots.
-/

namespace DslG624t.Adam2

open CString List Prod
open Env (CStr lit)

inductive Rec
  | set (index : ℕ) (var val : CStr)
  | unset (index : ℕ)
  deriving DecidableEq

namespace Rec

def idx : Rec → ℕ
  | set i _ _ => i
  | unset i => i

/-- The entry has room in a slot. -/
def Fits : Rec → Prop
  | set i var val => i < 256 ∧ var.1.length+val.1.length+2 ≤ flashEnvEntrySize-4
  | unset i => i < 256

def encode : Rec → Bytes
  | set i var val =>
    fillEntry erasedSlot (var.1.sum+val.1.sum) (UInt8.ofNat i)
      (UInt8.ofNat (var.1.length+val.1.length+2)) var val
  | unset i => fillEntry erasedSlot 0 (UInt8.ofNat i) 0 [] []

def decoded : Rec → Decoded
  | set i var val => .set i var val
  | unset i => .unset i

end Rec

variable {e : Rec}

lemma secondString_append {var : Bytes} (hvar : NulFree var) (m : Bytes) :
    secondString (var ++ 0 :: m) = cstr m := by
  have hdrop : (var ++ 0 :: m).drop (var.length+1) = m := by
    rw [← drop_drop,drop_left,drop_one,tail_cons]
  rw [secondString,strlen,cstr_append_nul hvar,hdrop]

variable (var : CStr) (found : Option (ℕ × CStr)) (i : ℕ) (entry : Bytes)

lemma payload_fillEntry (c i s : UInt8) (var val : Bytes) :
    ∃ tail, payload (fillEntry entry c i s var val) = var ++ 0 :: (val ++ 0 :: tail) :=
  ⟨_,by simp only [payload,fillEntry,cons_append,nil_append,append_assoc,
    drop_succ_cons,drop_zero]; rfl⟩

lemma toNat_ofNat_of_lt {i : ℕ} (hi : i < 256) : (UInt8.ofNat i).toNat = i :=
  UInt8.toNat_ofNat_of_lt hi

lemma decode_encode (h : e.Fits) : decode e.encode = e.decoded := by
  cases e with
  | unset i =>
    have hindex : index (Rec.unset i).encode = i := toNat_ofNat_of_lt h
    simp only [decode,hindex]
    rfl
  | set i var val =>
    obtain ⟨hi,hlen⟩ := h
    have hle : var.1.length+val.1.length+2 ≤ 124 := hlen
    obtain ⟨tail,htail⟩ := payload_fillEntry erasedSlot (var.1.sum+val.1.sum) (UInt8.ofNat i)
      (UInt8.ofNat (var.1.length+val.1.length+2)) var val
    have hindex : index (Rec.set i var val).encode = i := toNat_ofNat_of_lt hi
    have hsize : size (Rec.set i var val).encode = var.1.length+val.1.length+2 :=
      toNat_ofNat_of_lt (by omega)
    have hsum : ((payload (Rec.set i var val).encode).take (var.1.length+val.1.length+2)).sum =
        var.1.sum+val.1.sum := by
      have hsplit : var.1 ++ 0 :: (val.1 ++ 0 :: tail) =
          (var.1 ++ 0 :: (val.1 ++ [0])) ++ tail := by simp
      rw [Rec.encode,htail,hsplit,take_left' (by simp; omega)]
      simp
    have hs1 : cstr (payload (Rec.set i var val).encode) = var := by
      rw [Rec.encode,htail,cstr_append_nul var.2]
    have hs2 : secondString (payload (Rec.set i var val).encode) = val := by
      rw [Rec.encode,htail,secondString_append var.2,cstr_append_nul val.2]
    have hcontrol : control (Rec.set i var val).encode = 0x42 := rfl
    have hchecksum : checksum (Rec.set i var val).encode = var.1.sum+val.1.sum := rfl
    have hentry : flashEnvEntrySize = 128 := rfl
    dsimp only [decode]
    rw [hcontrol,hchecksum,hsize,hsum,hs1,hs2,hindex,if_neg (by decide),
      if_neg (by decide),if_neg (by omega),if_neg (by omega),if_neg (by omega),
      if_neg (by omega),if_neg (by omega),if_neg (by simp),if_neg (by omega)]
    rfl

abbrev Log := List Rec

def liveStep (var : CStr) (found : Option (ℕ × CStr)) : Rec → Option (ℕ × CStr)
  | .set i name val => if name = var then some (i,val) else found
  | .unset i => if found.map fst = some i then none else found

def highestStep (highest : ℤ) : Rec → ℤ
  | .set i _ _ => max highest i
  | .unset i => if (i : ℤ) = highest then i-1 else highest

def lastStep (i : ℕ) (last : Option Rec) (e : Rec) : Option Rec :=
  if e.idx = i then some e else last

namespace Log

def live (log : Log) (var : CStr) : Option (ℕ × CStr) := log.foldl (liveStep var) none

def value (log : Log) (var : CStr) : Option CStr := (log.live var).map snd

def highest (log : Log) : ℤ := log.foldl highestStep 0

def last (log : Log) (i : ℕ) : Option Rec := log.foldl (lastStep i) none

lemma live_append (log : Log) (e : Rec) (var : CStr) :
    Log.live (log ++ [e]) var = liveStep var (log.live var) e := by
  simp only [live,foldl_append,foldl_cons,foldl_nil]

lemma highest_append (log : Log) (e : Rec) :
    Log.highest (log ++ [e]) = highestStep log.highest e := by
  simp only [highest,foldl_append,foldl_cons,foldl_nil]

lemma last_append (log : Log) (e : Rec) (i : ℕ) :
    Log.last (log ++ [e]) i = lastStep i (log.last i) e := by
  simp only [last,foldl_append,foldl_cons,foldl_nil]

lemma mem_of_last {log : Log} {i : ℕ} {e : Rec} (h : log.last i = some e) : e ∈ log := by
  induction log using reverseRecOn with
  | nil => cases h
  | append_singleton log e' ih =>
    rw [last_append,lastStep] at h
    split at h
    · cases h
      simp
    · exact mem_append_left _ (ih h)

def region (log : Log) : Region :=
  log.map Rec.encode ++ List.replicate (maxEnvEntry-log.length) erasedSlot

end Log

variable {log : Log}

lemma decode_erasedSlot : decode erasedSlot = .free := rfl

lemma control_encode (e : Rec) : control e.encode = 0x42 := by
  cases e <;> rfl

lemma index_encode (h : e.Fits) : index e.encode = e.idx := by
  cases e with
  | set i var val => exact toNat_ofNat_of_lt h.1
  | unset i => exact toNat_ofNat_of_lt h

def rawFound (found : Option (ℕ × CStr)) : Option (ℕ × Bytes) :=
  found.map (map id Subtype.val)

lemma rawFound_index : (rawFound found).map fst = found.map fst := by
  cases found <;> rfl

lemma valueLoop_encode (h : e.Fits)
    (slots : List Bytes) :
    valueLoop var (rawFound found) (e.encode :: slots) =
      valueLoop var (rawFound (liveStep var found e)) slots := by
  cases e with
  | set i name val =>
    simp only [valueLoop,decode_encode h,Rec.decoded,liveStep,Subtype.ext_iff]
    split <;> rfl
  | unset i =>
    simp only [valueLoop,decode_encode h,Rec.decoded,liveStep,rawFound_index]
    split <;> rfl

lemma valueLoop_log (h : ∀ e ∈ log, e.Fits)
    (slots : List Bytes) :
    valueLoop var (rawFound found) (log.map Rec.encode ++ slots) =
      valueLoop var (rawFound (log.foldl (liveStep var) found)) slots := by
  induction log generalizing found with
  | nil => rfl
  | cons e log ih =>
    rw [map_cons,cons_append,valueLoop_encode var found (h e (by simp)),
      ih _ fun e' he' => h e' (mem_cons_of_mem e he'),foldl_cons]

lemma valueLoop_erased (var : Bytes) (found : Option (ℕ × Bytes)) (n : ℕ) :
    valueLoop var found (List.replicate n erasedSlot) = found := by
  cases n with
  | zero => rfl
  | succ n => simp only [replicate_succ,valueLoop,decode_erasedSlot]

lemma adam2EnvGetValue_region (h : ∀ e ∈ log, e.Fits) :
    adam2EnvGetValue log.region var = (log.value var).map Subtype.val := by
  have hloop := valueLoop_log var none h (replicate (maxEnvEntry-log.length) erasedSlot)
  rw [valueLoop_erased] at hloop
  rw [adam2EnvGetValue,Log.region,Log.value,Log.live]
  rw [show (none : Option (ℕ × Bytes)) = rawFound none from rfl,hloop]
  cases log.foldl (liveStep var) none <;> rfl

lemma lastWith_log (last : Option Rec) (h : ∀ e ∈ log, e.Fits) (slots : List Bytes) :
    lastWith i (last.map Rec.encode) (log.map Rec.encode ++ slots) =
      lastWith i ((log.foldl (lastStep i) last).map Rec.encode) slots := by
  induction log generalizing last with
  | nil => rfl
  | cons e log ih =>
    have hstep : (if index e.encode = i ∧ control e.encode = 0x42 then some e.encode
        else last.map Rec.encode) = (lastStep i last e).map Rec.encode := by
      simp only [index_encode (h e (by simp)),control_encode,and_true,lastStep]
      split <;> rfl
    rw [map_cons,cons_append,lastWith,if_neg (by rw [control_encode]; decide),
      hstep,ih _ fun e' he' => h e' (mem_cons_of_mem e he'),foldl_cons]

lemma lastWith_erased (last : Option Bytes) (n : ℕ) :
    lastWith i last (List.replicate n erasedSlot) = last := by
  cases n with
  | zero => rfl
  | succ n =>
    rw [replicate_succ,lastWith,if_pos (by decide)]

lemma adam2EnvGetVariable_region (h : ∀ e ∈ log, e.Fits) :
    adam2EnvGetVariable log.region i =
      match log.last i with
      | some (.set _ var _) => some var
      | _ => none := by
  have hloop := lastWith_log i none h (replicate (maxEnvEntry-log.length) erasedSlot)
  rw [lastWith_erased] at hloop
  have hslot : lastWith i none log.region = (log.last i).map Rec.encode := hloop
  rw [adam2EnvGetVariable,hslot]
  cases hlast : log.last i with
  | none => rfl
  | some e =>
    have hfits : e.Fits := h e (Log.mem_of_last hlast)
    simp only [Option.map_some,decode_encode hfits]
    cases e <;> rfl

lemma scanLoop_encode (highest : ℤ)
    (found : Option (ℕ × CStr)) (h : e.Fits) (slots : List Bytes) :
    scanLoop var i entry ⟨highest,found.map fst⟩ (e.encode :: slots) =
      scanLoop var (i+1) e.encode
        ⟨highestStep highest e,(liveStep var found e).map fst⟩ slots := by
  cases e with
  | set j name val =>
    simp only [scanLoop,decode_encode h,Rec.decoded,liveStep,highestStep,Scan.set,Subtype.ext_iff]
    split <;> rfl
  | unset j =>
    simp only [scanLoop,decode_encode h,Rec.decoded,liveStep,highestStep,Scan.unset]
    by_cases hj : found.map fst = some j
    · rw [if_pos hj,if_pos hj]
      rfl
    · rw [if_neg hj,if_neg hj]

lemma scanLoop_log (highest : ℤ) (found : Option (ℕ × CStr))
    (h : ∀ e ∈ log, e.Fits) (slots : List Bytes) :
    scanLoop var i entry ⟨highest,found.map fst⟩ (log.map Rec.encode ++ slots) =
      scanLoop var (i+log.length) ((log.map Rec.encode).getLastD entry)
        ⟨log.foldl highestStep highest,(log.foldl (liveStep var) found).map fst⟩ slots := by
  induction log generalizing i entry highest found with
  | nil => rfl
  | cons e log ih =>
    rw [map_cons,cons_append,scanLoop_encode var i entry highest found (h e (by simp)),
      ih _ _ _ _ fun e' he' => h e' (mem_cons_of_mem e he'),getLastD_cons,
      foldl_cons,foldl_cons,length_cons,add_right_comm,add_assoc]

lemma scanLoop_region (h : ∀ e ∈ log, e.Fits) :
    scanLoop var 0 [] ⟨0,none⟩ log.region = some
      (if log.length < maxEnvEntry then
        ⟨some log.length,⟨log.highest,(log.live var).map fst⟩,erasedSlot⟩
      else
        ⟨none,⟨log.highest,(log.live var).map fst⟩,(log.map Rec.encode).getLastD []⟩) := by
  have hloop := scanLoop_log var 0 [] 0 none h
    (replicate (maxEnvEntry-log.length) erasedSlot)
  rw [Log.region,show (none : Option ℕ) = Option.map fst (none : Option (ℕ × CStr)) from rfl,
    hloop,zero_add]
  by_cases hlen : log.length < maxEnvEntry
  · obtain ⟨n,hn⟩ : ∃ n, maxEnvEntry-log.length = n+1 :=
      ⟨maxEnvEntry-log.length-1,by omega⟩
    rw [if_pos hlen,hn,replicate_succ]
    simp only [scanLoop,decode_erasedSlot]
    rfl
  · rw [if_neg hlen,Nat.sub_eq_zero_of_le (by omega),replicate_zero]
    rfl

def leftover (stack : Bytes) (log : Log) : Bytes :=
  if log.length < maxEnvEntry then secondString stack
  else match log.getLast? with
    | some (.set _ _ val) => val
    | _ => []

lemma secondString_erasedSlot (stack : Bytes) :
    secondString (payload erasedSlot ++ stack) = secondString stack := by
  have hfree : NulFree (payload erasedSlot) := by decide
  have hlen : (payload erasedSlot).length = 124 := rfl
  rw [secondString,secondString,strlen,strlen,cstr_append hfree,length_append,
    add_assoc,← drop_drop,drop_left]

lemma secondString_encode (e : Rec) (stack : Bytes) :
    secondString (payload e.encode ++ stack) =
      match e with
      | .set _ _ val => val.1
      | .unset _ => [] := by
  cases e with
  | set i var val =>
    obtain ⟨tail,htail⟩ := payload_fillEntry erasedSlot (var.1.sum+val.1.sum) (UInt8.ofNat i)
      (UInt8.ofNat (var.1.length+val.1.length+2)) var val
    rw [Rec.encode,htail,append_assoc,cons_append,secondString_append var.2,
      append_assoc,cons_append,cstr_append_nul val.2]
  | unset i => rfl

def Log.indexFor (log : Log) (var : CStr) : ℕ :=
  ((log.live var).map fst).getD (log.highest+1).toNat

/-- `adam2_env_set_variable` on a log: the return value, the entry appended and whether there is
one. -/
def Log.write (stack : Bytes) (log : Log) (var : CStr) (val : Option CStr) : ℕ × Option Rec :=
  if (log.live var).isSome ∧ val.map Subtype.val = some (leftover stack log) then (0,none)
  else if maxEnvEntry ≤ log.length then (if val.isSome then 4 else 5,none)
  else match val with
    | none => (0,some (.unset (log.indexFor var)))
    | some v =>
      if flashEnvEntrySize-4 < var.1.length+v.1.length+2 then (6,none)
      else (0,some (.set (log.indexFor var) var v))

lemma region_set (hlen : log.length < maxEnvEntry) (e : Rec) :
    log.region.set log.length e.encode = Log.region (log ++ [e]) := by
  obtain ⟨n,hn⟩ : ∃ n, maxEnvEntry-log.length = n+1 :=
    ⟨maxEnvEntry-log.length-1,by omega⟩
  have hn' : maxEnvEntry-(log ++ [e]).length = n := by
    rw [length_append,length_singleton]
    omega
  rw [Log.region,Log.region,hn,hn',replicate_succ,map_append,append_assoc]
  rw [set_append_right _ _ (by simp)]
  simp

end DslG624t.Adam2
