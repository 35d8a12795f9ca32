import DslG624t.Lib.CString

/-!
# Names of environment variables

The table `env_ns` maps names to the numbers of predefined variables; every other name is the name
of a dynamic variable.
-/

namespace DslG624t.Env

open CString List Option

/-- `struct ENVDESC`. -/
structure EnvDesc where
  idx : ℕ
  nm : Bytes
  aliasNm : Option Bytes
  deriving DecidableEq

def getEnvDescForEnvVar (rows : List EnvDesc) (var : Bytes) : Option EnvDesc :=
  rows.find? fun d => strcmp d.nm var = 0 || d.aliasNm.any fun a => strcmp a var = 0

def isPreDefinedVar (rows : List EnvDesc) (var : Bytes) : ℕ :=
  match getEnvDescForEnvVar rows var with
  | some env => env.idx
  | none => 0

def getPreDefinedVarName (rows : List EnvDesc) (varsEnd index : ℕ) : Option Bytes :=
  if varsEnd ≤ index ∨ index = 0 then none
  else (rows.find? fun d => d.idx = index).map fun d => d.aliasNm.getD d.nm

def isReadOnlyVar (nm : Bytes) : Bool :=
  strcmp (ofString "CPUFREQ") nm = 0 || strcmp (ofString "SYSFREQ") nm = 0 ||
    strcmp (ofString "BUILD_OPS") nm = 0 || strcmp (ofString "MIPSFREQ") nm = 0

/-- The rows of `env_ns` before its delimiter, and the number of the delimiter. -/
structure EnvTable where
  rows : List EnvDesc
  varsEnd : ℕ
  idx_lt : ∀ d ∈ rows, d.idx < varsEnd
  varsEnd_le : varsEnd ≤ 255
  resolves : ∀ d ∈ rows, ∀ nm ∈ getPreDefinedVarName rows varsEnd d.idx,
    NulFree nm ∧ isPreDefinedVar rows nm = d.idx

namespace EnvTable

variable (T : EnvTable)

abbrev index (nm : Bytes) : ℕ := isPreDefinedVar T.rows nm

abbrev nameOf (i : ℕ) : Option Bytes := getPreDefinedVarName T.rows T.varsEnd i

variable {nm : Bytes}

lemma exists_row_of_index_ne_zero (h : T.index nm ≠ 0) : ∃ d ∈ T.rows, d.idx = T.index nm := by
  unfold index isPreDefinedVar at h ⊢
  cases hd : getEnvDescForEnvVar T.rows nm with
  | none => simp [hd] at h
  | some d => exact ⟨d,mem_of_find?_eq_some hd,rfl⟩

lemma index_lt (nm : Bytes) (h : T.index nm ≠ 0) : T.index nm < T.varsEnd := by
  obtain ⟨d,hd,hidx⟩ := T.exists_row_of_index_ne_zero h
  rw [← hidx]
  exact T.idx_lt d hd

lemma nameOf_index (h : T.index nm ≠ 0) : (T.nameOf (T.index nm)).isSome := by
  obtain ⟨d,hd,hidx⟩ := T.exists_row_of_index_ne_zero h
  have hlt := T.index_lt nm h
  unfold nameOf getPreDefinedVarName
  rw [if_neg (by omega),isSome_map,find?_isSome]
  exact ⟨d,hd,by simpa using hidx⟩

lemma nameOf_spec {i : ℕ} (h : T.nameOf i = some nm) :
    i ≠ 0 ∧ i < 255 ∧ NulFree nm ∧ T.index nm = i := by
  have hsome := h
  unfold nameOf getPreDefinedVarName at hsome
  split at hsome
  · cases hsome
  next hi =>
  obtain ⟨d,hd,-⟩ := map_eq_some_iff.mp hsome
  obtain rfl : d.idx = i := by simpa using find?_some hd
  obtain ⟨hfree,hidx⟩ := T.resolves d (mem_of_find?_eq_some hd) nm h
  have hle := T.varsEnd_le
  exact ⟨by omega,by omega,hfree,hidx⟩

end EnvTable

abbrev CStr := { s : Bytes // NulFree s }

def lit (s : String) (h : NulFree (ofString s) := by decide) : CStr := ⟨ofString s,h⟩

lemma nulFree_one : NulFree (ofString "1") := by decide

lemma nulFree_x : NulFree (ofString "x") := by decide

lemma nulFree_prompt : NulFree (ofString "PROMPT") := by decide

def letters (n : ℕ) : CStr := ⟨replicate n 0x61,by simp [NulFree,mem_replicate]⟩

lemma length_letters (n : ℕ) : (letters n).1.length = n := length_replicate

/-- A variable: the number of a predefined one, or a name that is none of the table's. -/
inductive Var (T : EnvTable) where
  | pre (i : ℕ) (h : (T.nameOf i).isSome)
  | dyn (nm : CStr) (h : T.index nm = 0)
  deriving DecidableEq

namespace Var

variable {T : EnvTable}

def ofName (T : EnvTable) (nm : CStr) : Var T :=
  if h : T.index nm = 0 then .dyn nm h else .pre (T.index nm) (T.nameOf_index h)

def name : Var T → CStr
  | .pre i h => ⟨(T.nameOf i).get h,(T.nameOf_spec (some_get h).symm).2.2.1⟩
  | .dyn nm _ => nm

lemma ofName_name (v : Var T) : ofName T v.name = v := by
  cases v with
  | pre i h =>
    obtain ⟨hi,-,-,hidx⟩ := T.nameOf_spec (some_get h).symm
    have hne : T.index ((T.nameOf i).get h) ≠ 0 := by rw [hidx]; exact hi
    unfold ofName name
    rw [dif_neg hne]
    simp only [hidx]
  | dyn nm h => exact dif_pos h

def num : Var T → ℕ
  | .pre i _ => i
  | .dyn _ _ => 0

lemma num_lt (v : Var T) : v.num < 255 := by
  cases v with
  | pre i h => exact (T.nameOf_spec (some_get h).symm).2.1
  | dyn nm h => exact Nat.zero_lt_succ _

lemma num_ofName (nm : CStr) : (ofName T nm).num = T.index nm := by
  unfold ofName
  split
  · next h => exact h.symm
  · rfl

def isDyn : Var T → Bool
  | .pre _ _ => false
  | .dyn _ _ => true

lemma isDyn_eq (v : Var T) : v.isDyn = decide (v.num = 0) := by
  cases v with
  | pre i h => exact (decide_eq_false (T.nameOf_spec (some_get h).symm).1).symm
  | dyn nm h => rfl

end Var

/-- `enum ENV_VARS` as the AR7 boards compile it (`TNETD73XX_BOARD` and none of the other
board symbols). -/
inductive EnvVars where
  | env_vars_start | CPUFREQ | MEMSZ | FLASHSZ | MODETTY0 | MODETTY1 | PROMPT | BOOTCFG | HWA_0
  | HWA_1 | HWA_RNDIS | HWA_3 | IPA | IPA_SVR | BLINE_MAC0 | BLINE_MAC1 | BLINE_RNDIS
  | BLINE_ATM | USB_PID | USB_VID | USB_EPPOLLI | IPA_GATEWAY | SUBNET_MASK | USB_SERIAL
  | HWA_HRNDIS | REMOTE_USER | REMOTE_PASS | REMOTE_DIR | SYSFREQ | LINK_TIMEOUT | MAC_PORT
  | PATH | HOSTNAME | TFTPCFG | BUILD_OPS | TFTP_FO_FNAME | TFTP_FO_PORTS | CONSOLE_STATE
  | MIPSFREQ | env_vars_end

def envEntry (x : EnvVars) (nm : String) : EnvDesc := ⟨x.ctorIdx,ofString nm,none⟩

/-- The initialiser of `env_ns`, in its own order. -/
def envNs : List EnvDesc :=
  [envEntry .env_vars_start "env_vars_start",envEntry .CPUFREQ "CPUFREQ",
    envEntry .MEMSZ "MEMSZ",envEntry .FLASHSZ "FLASHSZ",envEntry .MODETTY0 "MODETTY0",
    envEntry .MODETTY1 "MODETTY1",envEntry .PROMPT "PROMPT",envEntry .BOOTCFG "BOOTCFG",
    envEntry .HWA_0 "HWA_0",envEntry .HWA_1 "HWA_1",envEntry .HWA_RNDIS "HWA_RNDIS",
    envEntry .HWA_3 "HWA_3",envEntry .IPA "IPA",envEntry .IPA_SVR "IPA_SVR",
    envEntry .IPA_GATEWAY "IPA_GATEWAY",envEntry .SUBNET_MASK "SUBNET_MASK",
    envEntry .BLINE_MAC0 "BLINE_MAC0",envEntry .BLINE_MAC1 "BLINE_MAC1",
    envEntry .BLINE_RNDIS "BLINE_RNDIS",envEntry .BLINE_ATM "BLINE_ATM",
    envEntry .USB_PID "USB_PID",envEntry .USB_VID "USB_VID",
    envEntry .USB_EPPOLLI "USB_EPPOLLI",envEntry .USB_SERIAL "USB_SERIAL",
    envEntry .HWA_HRNDIS "HWA_HRNDIS",envEntry .REMOTE_USER "REMOTE_USER",
    envEntry .REMOTE_PASS "REMOTE_PASS",envEntry .REMOTE_DIR "REMOTE_DIR",
    envEntry .SYSFREQ "SYSFREQ",envEntry .LINK_TIMEOUT "LINK_TIMEOUT",
    envEntry .MAC_PORT "MAC_PORT",envEntry .PATH "PATH",envEntry .HOSTNAME "HOSTNAME",
    envEntry .TFTPCFG "TFTPCFG",envEntry .BUILD_OPS "BUILD_OPS",
    envEntry .TFTP_FO_FNAME "TFTP_FO_FNAME",envEntry .TFTP_FO_PORTS "TFTP_FO_PORTS",
    envEntry .CONSOLE_STATE "CONSOLE_STATE",envEntry .MIPSFREQ "MIPSFREQ",
    envEntry .IPA "my_ipaddress",envEntry .CPUFREQ "cpufrequency",
    envEntry .SYSFREQ "sysfrequency",envEntry .HWA_0 "maca",envEntry .HWA_1 "macb",
    envEntry .MEMSZ "memsize"]

def ar7Table : EnvTable where
  rows := envNs
  varsEnd := EnvVars.env_vars_end.ctorIdx
  idx_lt := by decide
  varsEnd_le := by decide
  resolves := by decide +kernel

end DslG624t.Env
