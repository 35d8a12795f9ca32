import DslG624t.Cpmac.Multicast
import DslG624t.Cpmac.Fragments
import DslG624t.Cpmac.Rx
import DslG624t.Cpmac.Tx
import DslG624t.Env.Chain
import DslG624t.Env.Failed
import DslG624t.Env.Defrag
import DslG624t.Env.PowerFail
import DslG624t.Bridge.MfdTimers
import DslG624t.Bridge.Locks
import DslG624t.Bridge.SkbLinear
import DslG624t.WanBridge.Failed
import DslG624t.WanBridge.Frames
import DslG624t.Ticfg.Stores
import DslG624t.Ticfg.RegionLock
import DslG624t.Upgrader.Copy
import DslG624t.Upgrader.Getenv
import DslG624t.Upgrader.Mtd
import DslG624t.Chksum.Main
import DslG624t.Chksum.Bitwise
import DslG624t.Ip.Deliver
import DslG624t.Ip.Forward
import DslG624t.Intc.Secondary
import DslG624t.Sched.Runs
import DslG624t.Sched.Tune
import DslG624t.Keypad.Events
import DslG624t.Keypad.Scan
import DslG624t.Bridge.MfdData
import DslG624t.Bridge.Querier
import DslG624t.Vlynq.Delivery
import DslG624t.Vlynq.ChainAppend
import DslG624t.Usb.RndisAddress
import DslG624t.Usb.RndisSend
import DslG624t.Bridge.FilterTable
import DslG624t.Adam2.Tombstones
import DslG624t.Ticfg.Areas
import DslG624t.Cpmac.Channel
import DslG624t.Cpmac.SendFragments
import DslG624t.Fwb.Strata
import DslG624t.Mii.Mdix
import DslG624t.Led.Steady
import DslG624t.Intc.Polarity
import DslG624t.Sys.Timer16
import DslG624t.Sys.ClkExact
import DslG624t.Vlynq.DevBase
import DslG624t.Intc.Registrations
import DslG624t.Vlynq.Balance
import DslG624t.Led.Ledcfg
import DslG624t.I2c.Xfer
import DslG624t.Vmac.Receive
import DslG624t.Ip.Esp
