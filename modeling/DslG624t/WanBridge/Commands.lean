import DslG624t.Lib.CString

/-!
# The commands of the WAN bridge

`wb_config.c` keeps the bridges on one global list, and on each bridge a list of devices, an array
of buckets indexed by VLAN key and a state flag.
-/

namespace DslG624t.WanBridge

open CString Function

abbrev Word := Bytes

def xdigit (c : UInt8) : Option UInt32 :=
  if 48 ≤ c ∧ c ≤ 57 then some (c-48).toUInt32
  else if 65 ≤ c ∧ c ≤ 70 then some (c-55).toUInt32
  else if 97 ≤ c ∧ c ≤ 102 then some (c-87).toUInt32
  else none

/-- The digit loop of `simple_strtoul`. -/
def digits (base : UInt32) : UInt32 → Word → UInt32
  | result, [] => result
  | result, c :: cp =>
    match xdigit c with
    | some value => if value < base then digits base (result*base+value) cp else result
    | none => result

def simpleStrtoul : Word → UInt32
  | 48 :: 120 :: c :: cp =>
    if (xdigit c).isSome then digits 16 0 (c :: cp) else digits 8 0 (120 :: c :: cp)
  | 48 :: cp => digits 8 0 cp
  | cp => digits 10 0 cp

def asInt (v : UInt32) : ℤ := v.toBitVec.toInt

def einval : ℤ := -22
def enomem : ℤ := -12

def maxLenWanBridgeName : ℕ := 10
def maxVlanSupported : ℕ := 4095
def ifnamsiz : ℕ := 16

/-- `WAN_BRIDGE_MODE`, without half bridge support. -/
inductive Mode
  | nonVlan
  | vlan
  deriving DecidableEq, Repr

/-- `WAN_BRIDGE`: `bucket` is `vlan_hash_bucket`, `ready` is `wb_state = WAN_BRIDGE_READY`. -/
structure Bridge where
  name : Word
  mode : Mode
  ready : Bool
  deviceList : List ℕ
  bucket : ℕ → Option ℕ

/-- `WAN_BRIDGE_DEVICE`. -/
structure Device where
  netDevice : ℕ
  vlanKey : ℤ
  userPriority : ℤ
  wanBridge : ℕ

/-- The heap of the module.  Addresses from `next` on were never handed out; a network device
is known by its name. -/
structure Wb where
  wanBridgeList : List ℕ
  bridge : ℕ → Option Bridge
  device : ℕ → Option Device
  net : ℕ → Option Word
  next : ℕ

def Wb.init : Wb := ⟨[],fun _ => none,fun _ => none,fun _ => none,0⟩

/-- What the rest of the kernel answers while a command runs.  `register` is the name that
`register_netdev` gives the device, `none` where it fails. -/
structure Kernel where
  devGetByName : Bool
  bridgeMalloc : Bool
  hasDoIoctl : Bool
  doIoctl : Bool
  netMalloc : Bool
  privMalloc : Bool
  register : Option Word
  deviceMalloc : Bool

def findBridge (s : Wb) (name : Word) : List ℕ → Option (Option ℕ)
  | [] => some none
  | b :: bs => do
    let br ← s.bridge b
    if br.name = name then some (some b) else findBridge s name bs

/-- `strcmp` over the names of the network devices of a bridge. -/
def findDevice (s : Wb) (name : Word) : List ℕ → Option (Option ℕ)
  | [] => some none
  | d :: ds => do
    let dev ← s.device d
    let devName ← s.net dev.netDevice
    if devName = name then some (some d) else findDevice s name ds

def Wb.setBridge (s : Wb) (b : ℕ) (br : Bridge) : Wb :=
  { s with bridge := update s.bridge b (some br) }

def linked {α : Type} (heap : ℕ → Option α) (l : List ℕ) : Bool := l.all fun x => (heap x).isSome

/-- `wb_add`; the inner `none` is its error return. -/
def wbAdd (br : Bridge) (d : ℕ) (key : ℤ) : Option (Option Bridge) :=
  if 0 ≤ key ∧ key < maxVlanSupported then
    match br.bucket key.toNat with
    | some _ => some none
    | none => some (some { br with bucket := update br.bucket key.toNat (some d) })
  else none

/-- `wb_delete`; the inner `none` is its error return. -/
def wbDelete (br : Bridge) (key : ℤ) : Option (Option Bridge) :=
  if 0 ≤ key ∧ key < maxVlanSupported then
    match br.bucket key.toNat with
    | none => some none
    | some _ => some (some { br with bucket := update br.bucket key.toNat none })
  else none

/-- `wb_device_initialize`; the inner `none` is its NULL. -/
def wbDeviceInitialize (k : Kernel) (name : Word) (s : Wb) : Option (Option (ℕ × Wb)) :=
  if !k.netMalloc then some none
  else if !k.privMalloc then some none
  -- the name is copied with `strcpy`
  else if ifnamsiz ≤ name.length then none
  else match k.register with
    | none => some none
    | some registered =>
      some (some (s.next,{ s with net := update s.net s.next (some registered), next := s.next+1 }))

def wbDeviceUninitialize (n : ℕ) (s : Wb) : Option Wb := do
  let _ ← s.net n
  some { s with net := update s.net n none }

/-- `list_del` of the device's links, then `wb_free`. -/
def unlinkDevice (b d : ℕ) (s : Wb) : Option Wb := do
  let br ← s.bridge b
  if linked s.device br.deviceList then
    some { s.setBridge b { br with deviceList := br.deviceList.erase d } with
      device := update s.device d none }
  else none

def detachDevice (b d : ℕ) (s : Wb) : Option Wb := do
  let s ← unlinkDevice b d s
  let br ← s.bridge b
  some (if br.deviceList.isEmpty then s.setBridge b { br with ready := false } else s)

def parseMode (arg : Word) : Option Mode :=
  if simpleStrtoul arg = 0 then some .nonVlan
  else if simpleStrtoul arg = 1 then some .vlan
  else none

/-- The part of `wb_add_bridge` behind its validations. -/
def createBridge (k : Kernel) (name : Word) (mode : Mode) (s : Wb) : Option (ℤ × Wb) :=
  if !k.bridgeMalloc then some (enomem,s)
  -- the name is copied with `strcpy`
  else if maxLenWanBridgeName ≤ name.length then none
  else if !k.hasDoIoctl then some (einval,s)
  else if !k.doIoctl then some (einval,s)
  else if linked s.bridge s.wanBridgeList then
    some (0,{ s with
      bridge := update s.bridge s.next (some ⟨name,mode,false,[],fun _ => none⟩)
      wanBridgeList := s.wanBridgeList ++ [s.next]
      next := s.next+1 })
  else none

def wbAddBridge (k : Kernel) (argv : List Word) (s : Wb) : Option (ℤ × Wb) :=
  match argv with
  | [_,name,_,mode] => do
    match ← findBridge s name s.wanBridgeList with
    | some _ => some (einval,s)
    | none =>
      if !k.devGetByName then some (einval,s)
      else match parseMode mode with
        | none => some (einval,s)
        | some mode => createBridge k name mode s
  | _ => some (einval,s)

/-- The loop of `wb_del_bridge` over the devices.  Its step reads the links of the device that
the body has freed. -/
def deattachDevices (b : ℕ) : List ℕ → Wb → Option Wb
  | [], s => some s
  | d :: ds, s => do
    let dev ← s.device d
    let s ← wbDeviceUninitialize dev.netDevice s
    let s ← unlinkDevice b d s
    let _ ← s.device d
    deattachDevices b ds s

/-- The part of `wb_del_bridge` behind the loop: `list_del` and `wb_free`. -/
def unlinkBridge (b : ℕ) (s : Wb) : Option Wb :=
  if linked s.bridge s.wanBridgeList then
    some { s with
      wanBridgeList := s.wanBridgeList.erase b
      bridge := update s.bridge b none }
  else none

def wbDelBridge (k : Kernel) (argv : List Word) (s : Wb) : Option (ℤ × Wb) :=
  match argv with
  | [_,name] => do
    match ← findBridge s name s.wanBridgeList with
    | none => some (einval,s)
    | some b =>
      if !k.doIoctl then some (einval,s)
      else do
        let br ← s.bridge b
        let s ← deattachDevices b br.deviceList s
        let s ← unlinkBridge b s
        some (0,s)
  | _ => some (einval,s)

/-- The key and priority that `wb_add_interface` takes from the arguments behind the interface
name, or the error it returns. -/
def keyAndPriority (mode : Mode) (args : List Word) : Except ℤ (ℤ × ℤ) :=
  match mode, args with
  | .nonVlan, _ => .ok (0,0)
  | .vlan, [] => .error einval
  | .vlan, keyArg :: rest =>
    let key := asInt (simpleStrtoul keyArg)
    if key ≤ 0 ∨ maxVlanSupported < key then .error einval
    else match rest with
      | [] => .ok (key,0)
      | prioArg :: _ =>
        let prio := asInt (simpleStrtoul prioArg)
        if prio < 0 ∨ 7 < prio then .error (-1) else .ok (key,prio)

def attachDevice (b n : ℕ) (key prio : ℤ) (s : Wb) : Option Wb := do
  let br ← s.bridge b
  if linked s.device br.deviceList then
    some { s.setBridge b { br with deviceList := br.deviceList ++ [s.next], ready := true } with
      device := update s.device s.next (some ⟨n,key,prio,b⟩)
      next := s.next+1 }
  else none

def undoAttach (b d n : ℕ) (s : Wb) : Option Wb := do
  let s ← wbDeviceUninitialize n s
  detachDevice b d s

/-- The part of `wb_add_interface` behind its validations. -/
def createInterface (k : Kernel) (b : ℕ) (name : Word) (key prio : ℤ) (s : Wb) :
    Option (ℤ × Wb) := do
  match ← wbDeviceInitialize k name s with
  | none => some (enomem,s)
  | some (n,s₁) =>
    if !k.deviceMalloc then some (enomem,s₁)
    else do
      let s₂ ← attachDevice b n key prio s₁
      let br ← s₂.bridge b
      match br.mode with
      | .nonVlan => some (0,s₂)
      | .vlan =>
        match ← wbAdd br s₁.next key with
        | some br' => some (0,s₂.setBridge b br')
        | none => do
          let s₃ ← undoAttach b s₁.next n s₂
          some (einval,s₃)

def wbAddInterface (k : Kernel) (argv : List Word) (s : Wb) : Option (ℤ × Wb) :=
  match argv with
  | _ :: name :: ifname :: args =>
    if 2 < args.length then some (-1,s)
    else do
      match ← findBridge s name s.wanBridgeList with
      | none => some (einval,s)
      | some b =>
        if k.devGetByName then some (einval,s)
        else do
          let br ← s.bridge b
          match keyAndPriority br.mode args with
          | .error e => some (e,s)
          | .ok (key,prio) => createInterface k b ifname key prio s
  | _ => some (-1,s)

/-- The part of `wb_del_interface` behind its validations. -/
def removeInterface (b d : ℕ) (s : Wb) : Option (ℤ × Wb) := do
  let dev ← s.device d
  let s₁ ← wbDeviceUninitialize dev.netDevice s
  let br ← s₁.bridge b
  match br.mode with
  | .nonVlan => do
    let s₂ ← detachDevice b d s₁
    some (0,s₂)
  | .vlan => do
    match ← wbDelete br dev.vlanKey with
    | none => some (einval,s₁)
    | some br' => do
      let s₂ ← detachDevice b d (s₁.setBridge b br')
      some (0,s₂)

def wbDelInterface (argv : List Word) (s : Wb) : Option (ℤ × Wb) :=
  match argv with
  | [_,name,ifname] => do
    match ← findBridge s name s.wanBridgeList with
    | none => some (einval,s)
    | some b => do
      let br ← s.bridge b
      match ← findDevice s ifname br.deviceList with
      | none => some (einval,s)
      | some d => removeInterface b d s
  | _ => some (einval,s)

inductive Command
  | addBridge (k : Kernel) (argv : List Word)
  | delBridge (k : Kernel) (argv : List Word)
  | addInterface (k : Kernel) (argv : List Word)
  | delInterface (argv : List Word)

def Wb.step (s : Wb) : Command → Option (ℤ × Wb)
  | .addBridge k argv => wbAddBridge k argv s
  | .delBridge k argv => wbDelBridge k argv s
  | .addInterface k argv => wbAddInterface k argv s
  | .delInterface argv => wbDelInterface argv s

def Wb.run (s : Wb) : List Command → Option Wb
  | [] => some s
  | c :: cs => do
    let (_,s') ← s.step c
    s'.run cs

end DslG624t.WanBridge
