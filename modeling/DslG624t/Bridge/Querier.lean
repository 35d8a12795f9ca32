import DslG624t.Bridge.Forward
import DslG624t.Lib.Word

/-!
# The election of the IGMP querier

The two timers of a bridge built with `CONFIG_BRIDGE_CONF_MODE` and the handlers that start and
stop them.
-/

namespace DslG624t.Bridge.Querier

open Forward (Querier)

/-- `proxy` is `conf_mode`; `general` and `other` say which timer is pending, and `readded` that
`add_timer` met a pending one. -/
structure Election where
  proxy : Bool
  isQuerier : Querier
  general : Bool
  other : Bool
  readded : Bool

def Election.addGeneral (s : Election) : Election :=
  { s with general := true, readded := s.readded || s.general }

def Election.addOther (s : Election) : Election :=
  { s with other := true, readded := s.readded || s.other }

def brMfdInit : Election := Election.addGeneral ⟨false,.querier,false,false,false⟩

def brOtherQuerierPresentTimerExpired (s : Election) : Election :=
  { s with isQuerier := .querier }.addGeneral

def brGeneralQueryTimerExpired (s : Election) : Election := s.addGeneral

def Election.delTimer (s : Election) : Election :=
  match s.isQuerier with
  | .querier => { s with general := false }
  | .nonQuerier => { s with other := false }
  | .notApplicable => s

def brEnableProxyMode (s : Election) : Election :=
  { s.delTimer with isQuerier := .notApplicable, proxy := true }

def brDisableProxyMode (s : Election) : Election :=
  { s with proxy := false, isQuerier := .querier }.addGeneral

def load (e : Endian) (a : ℕ) : ℕ := e.decode (Endian.big.encode a)

/-- `br_handle_mc` for a query; `own` is the address of the bridge, if it has one. -/
def queryReceived (e : Endian) (own : Option ℕ) (saddr : ℕ) (s : Election) : Election :=
  match s.proxy, own with
  | false, some own =>
    match s.isQuerier with
    | .querier =>
      if load e saddr < load e own then
        { s with isQuerier := .nonQuerier, general := false }.addOther
      else s
    | .nonQuerier =>
      if load e saddr < load e own then { s with other := false }.addOther
      else { s with isQuerier := .querier, other := false }.addGeneral
    | .notApplicable => s
  | _, _ => s

inductive Ev
  | query (own : Option ℕ) (saddr : ℕ)
  | generalExpired
  | otherExpired
  | enableProxy
  | disableProxy

def Election.step (e : Endian) (s : Election) : Ev → Election
  | .query own saddr => queryReceived e own saddr s
  | .generalExpired =>
    if s.general then brGeneralQueryTimerExpired { s with general := false } else s
  | .otherExpired =>
    if s.other then brOtherQuerierPresentTimerExpired { s with other := false } else s
  | .enableProxy => brEnableProxyMode s
  | .disableProxy => brDisableProxyMode s

def Election.processes (s : Election) : Ev → Bool
  | .query own _ => !s.proxy && own.isSome
  | .generalExpired => s.general
  | .otherExpired => s.other
  | _ => true

def lastLower : List Ev → Bool
  | .query (some own) saddr :: _ => saddr < own
  | .generalExpired :: log => lastLower log
  | _ => false

structure Elected (s : Election) (log : List Ev) : Prop where
  bridge : s.proxy = false → (s.isQuerier = .querier ∧ s.general = true ∧ s.other = false) ∨
    s.isQuerier = .nonQuerier ∧ s.general = false ∧ s.other = true
  proxy : s.proxy = true → s.isQuerier = .notApplicable ∧ s.general = false ∧ s.other = false
  once : s.readded = false
  last : s.isQuerier = .nonQuerier ↔ lastLower log = true

/-- A query is compared as its addresses are ordered, and the proxy is only disabled when it is
enabled. -/
def Fine (e : Endian) (s : Election) : Ev → Prop
  | .query (some own) saddr => s.proxy = false → (load e saddr < load e own ↔ saddr < own)
  | .disableProxy => s.proxy = true
  | _ => True

inductive Run (e : Endian) : Election → List Ev → Prop
  | init : Run e brMfdInit []
  | step {s : Election} {log : List Ev} (ev : Ev) :
    Run e s log → Fine e s ev → Run e (s.step e ev) (if s.processes ev then ev :: log else log)

variable {e : Endian} {s : Election} {log : List Ev}

lemma elected_iff : Elected s log ↔
    s = ⟨false,.querier,true,false,false⟩ ∧ lastLower log = false ∨
      s = ⟨false,.nonQuerier,false,true,false⟩ ∧ lastLower log = true ∨
      s = ⟨true,.notApplicable,false,false,false⟩ ∧ lastLower log = false := by
  constructor
  · rintro ⟨hbridge,hproxy,honce,hlast⟩
    obtain ⟨proxy,isQuerier,general,other,readded⟩ := s
    cases proxy with
    | false => rcases hbridge rfl with ⟨rfl,rfl,rfl⟩ | ⟨rfl,rfl,rfl⟩ <;> simp_all
    | true =>
      obtain ⟨rfl,rfl,rfl⟩ := hproxy rfl
      simp_all
  · rintro (⟨rfl,h⟩ | ⟨rfl,h⟩ | ⟨rfl,h⟩) <;> exact ⟨by simp,by simp,rfl,by simp [h]⟩

lemma Elected.step (h : Elected s log) (ev : Ev) (hfine : Fine e s ev) :
    Elected (s.step e ev) (if s.processes ev then ev :: log else log) := by
  rw [elected_iff] at h ⊢
  rcases h with ⟨rfl,hlast⟩ | ⟨rfl,hlast⟩ | ⟨rfl,hlast⟩
  · cases ev with
    | query own saddr =>
      cases own with
      | none => exact .inl ⟨rfl,hlast⟩
      | some own =>
        have hiff := hfine rfl
        by_cases hlt : saddr < own
        · exact .inr (.inl ⟨if_pos (hiff.mpr hlt),decide_eq_true hlt⟩)
        · exact .inl ⟨if_neg (mt hiff.mp hlt),decide_eq_false hlt⟩
    | disableProxy => cases hfine
    | generalExpired => exact .inl ⟨rfl,hlast⟩
    | otherExpired => exact .inl ⟨rfl,hlast⟩
    | enableProxy => exact .inr (.inr ⟨rfl,rfl⟩)
  · cases ev with
    | query own saddr =>
      cases own with
      | none => exact .inr (.inl ⟨rfl,hlast⟩)
      | some own =>
        have hiff := hfine rfl
        by_cases hlt : saddr < own
        · exact .inr (.inl ⟨if_pos (hiff.mpr hlt),decide_eq_true hlt⟩)
        · exact .inl ⟨if_neg (mt hiff.mp hlt),decide_eq_false hlt⟩
    | disableProxy => cases hfine
    | generalExpired => exact .inr (.inl ⟨rfl,hlast⟩)
    | otherExpired => exact .inl ⟨rfl,rfl⟩
    | enableProxy => exact .inr (.inr ⟨rfl,rfl⟩)
  cases ev with
  | disableProxy => exact .inl ⟨rfl,rfl⟩
  | enableProxy => exact .inr (.inr ⟨rfl,rfl⟩)
  | query => exact .inr (.inr ⟨rfl,hlast⟩)
  | generalExpired => exact .inr (.inr ⟨rfl,hlast⟩)
  | otherExpired => exact .inr (.inr ⟨rfl,hlast⟩)

/-- In every run the pending timer is the one of the querier state, and the state is that of the
last query. -/
theorem elected_of_run (h : Run e s log) : Elected s log := by
  induction h with
  | init => exact ⟨fun _ => .inl ⟨rfl,rfl,rfl⟩,nofun,rfl,by decide⟩
  | step ev _ hfine ih => exact ih.step ev hfine

/-- 10.0.0.1 takes over from a bridge with the address 10.0.0.2. -/
theorem elected_of_run_lower :
    Elected (brMfdInit.step .little (.query (some 0x0a000002) 0x0a000001))
      [.query (some 0x0a000002) 0x0a000001] :=
  elected_of_run (Run.init.step (.query (some 0x0a000002) 0x0a000001) fun _ => by decide)

/-- A little-endian bridge with the address 10.0.1.1 stays the querier beside 10.0.0.2, and
disabling the proxy of a bridge without one adds the pending timer again. -/
theorem election_fails :
    (¬ Elected (brMfdInit.step .little (.query (some 0x0a000101) 0x0a000002))
      [.query (some 0x0a000101) 0x0a000002]) ∧
    ¬ Elected (brMfdInit.step .little .disableProxy) [.disableProxy] := by
  constructor
  · intro h
    exact absurd (h.last.mpr (by decide)) (by decide)
  · intro h
    cases h.once

end DslG624t.Bridge.Querier
