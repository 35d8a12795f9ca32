import DslG624t.Adam2.Store
import DslG624t.Env.Store

/-!
# Reading the environment through `/proc`

A `read` of `/proc/ticfg/env` goes through `proc_file_read`, which asks `ticfg_proc_read_env` for
one page after the other. The allocations of the readers succeed, and so does the copy to user
space.
-/

namespace DslG624t.Ticfg

open CString
open Env (EnvConfig sysGetenv sysGetivar)

/-- What `ticfg_dev.c` calls: `adam2_env_get_variable` and `adam2_env_get_value`. -/
structure EnvApi (M : Type) where
  getVariable : ℕ → M → ℕ → Option (Option Bytes × M)
  getValue : ℕ → M → Bytes → Option (Option Bytes × M)

def adam2Api : EnvApi Adam2.Region where
  getVariable _ r idx := some (Adam2.adam2EnvGetVariable r idx,r)
  getValue _ r var := some (Adam2.adam2EnvGetValue r var,r)

def deref : Option Bytes × Bytes → Option (Bytes × Bytes)
  | (none,_) => none
  | (some s,m) => some (s,m)

/-- `adam2_env_get_variable` of the adapter: it looks the name up three times. -/
def adam2EnvGetVariable (fuel : ℕ) (cfg : EnvConfig) (m : Bytes) (idx : ℕ) :
    Option (Option Bytes × Bytes) :=
  (sysGetivar fuel cfg m idx).bind fun
    | (none,m) => some (none,m)
    | (some _,m) =>
      ((sysGetivar fuel cfg m idx).bind deref).bind fun (_,m) =>
        ((sysGetivar fuel cfg m idx).bind deref).map fun (pVariable,m) => (some pVariable,m)

def adam2EnvGetValue (fuel : ℕ) (cfg : EnvConfig) (m : Bytes) (var : Bytes) :
    Option (Option Bytes × Bytes) :=
  ((sysGetenv fuel cfg m var).bind deref).bind fun (_,m) =>
    ((sysGetenv fuel cfg m var).bind deref).map fun (pVariable,m) => (some pVariable,m)

def pspbootApi (cfg : EnvConfig) : EnvApi Bytes where
  getVariable fuel m idx := adam2EnvGetVariable fuel cfg m idx
  getValue fuel m var := adam2EnvGetValue fuel cfg m var

def formatLine (pvar pval : Bytes) : Bytes := pvar ++ 0x09 :: (pval ++ [0x0a])

/-- Where the loop of `ticfg_proc_read_env` ends: `last_index`, the page and `break_flag`. -/
structure Page where
  lastIndex : ℕ
  text : Bytes
  breakFlag : Bool

variable {M : Type} (api : EnvApi M) (fuel : ℕ)

/-- The loop, which keeps `last_index` equal to `i`. -/
def pageLoop (limit : ℤ) : ℕ → M → ℕ → Bytes → Option (Page × M)
  | 0, _, _, _ => none
  | steps+1, m, i, text =>
    (api.getVariable fuel m i).bind fun
      | (none,m) => some (⟨i,text,false⟩,m)
      | (some pvar,m) =>
        (api.getValue fuel m pvar).bind fun
          | (none,m) => pageLoop limit steps m (i+1) text
          | (some pval,m) =>
            let tmplen := pval.length+pvar.length+2
            if ((text.length+tmplen : ℕ) : ℤ) > limit then some (⟨i,text,true⟩,m)
            else pageLoop limit steps m (i+1) (text ++ formatLine pvar pval)

/-- The open file: its position, the static `last_index` of the driver, and the store. -/
structure File (M : Type) where
  pos : ℕ
  lastIndex : ℕ
  store : M

/-- What `ticfg_proc_read_env` returns, with the page and `*eof`. -/
structure Reply where
  len : ℤ
  page : Bytes
  eof : Bool

def ticfgProcReadEnv (f : File M) (count : ℕ) : Option (Reply × File M) :=
  let limit : ℤ := count-80
  let lastIndex := if f.pos = 0 then 0 else f.lastIndex
  (pageLoop api fuel limit fuel f.store lastIndex []).map fun (page,m) =>
    let len : ℤ := page.text.length
    (⟨if len > limit then limit else len,page.text,!page.breakFlag⟩,
      { f with lastIndex := page.lastIndex, store := m })

def pageSize : ℕ := 4096

def procBlockSize : ℕ := pageSize-1024

/-- The loop of `proc_file_read`: what it returns, and what it has copied to the user. -/
def fileLoop : ℕ → File M → ℕ → Bytes → Option (ℤ × Bytes × File M)
  | 0, _, _, _ => none
  | steps+1, f, nbytes, buf =>
    if nbytes = 0 then some (buf.length,buf,f)
    else
      (ticfgProcReadEnv api fuel f (min procBlockSize nbytes)).bind fun (reply,f) =>
        if reply.len = 0 then some (buf.length,buf,f)
        else if reply.len < 0 then some (if buf.length = 0 then reply.len else buf.length,buf,f)
        else
          let n := reply.len.toNat
          let f := { f with pos := f.pos+n }
          let buf := buf ++ reply.page.take n
          if reply.eof then some (buf.length,buf,f)
          else fileLoop steps f (nbytes-n) buf

def procFileRead (f : File M) (nbytes : ℕ) : Option (ℤ × Bytes × File M) :=
  fileLoop api fuel fuel f nbytes []

/-- How far a reader has come: a read returned 0, one returned an error, or there was none left
to make. -/
inductive Outcome
  | eof (text : Bytes)
  | error
  | unfinished
  deriving DecidableEq

abbrev ReadSize := { n : ℕ // 0 < n ∧ n ≤ pageSize }

def readAll : File M → List ReadSize → Bytes → Option Outcome
  | _, [], _ => some .unfinished
  | f, n :: ns, text =>
    (procFileRead api fuel f n).bind fun (retval,buf,f) =>
      if retval < 0 then some .error
      else if retval = 0 then some (.eof text)
      else readAll f ns (text ++ buf)

def Reads (store : M) (sizes : List ReadSize) (o : Outcome) : Prop :=
  ∀ lastIndex, ∃ k, ∀ fuel ≥ k, readAll api fuel ⟨0,lastIndex,store⟩ sizes [] = some o

end DslG624t.Ticfg
