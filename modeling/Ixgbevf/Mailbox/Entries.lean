import Ixgbevf.Lib.Locks

/-!
# The entry points that talk to the PF

What the driver's entry points do with the mailbox and with locks, one piece of code for
each function of the source that exchanges messages with the PF.  The values the functions
compute are left out; a test of the source is a branch that may go either way.
`Entry.guarded` says that all call sites but three are under `mbx_lock`.
-/

namespace Ixgbevf.Mailbox

/-! ### Locks and call sites -/

/-- The locks: the RTNL mutex, the address lock under which the kernel calls
`ixgbevf_set_rx_mode`, the `__IXGBEVF_RESETTING` bit, `mbx_lock`, and the rule that a work
item runs once at a time, for the service task. -/
inductive Lock where
  | rtnl
  | addr
  | resetting
  | mbx
  | service
deriving DecidableEq, Repr

/-- The call sites of a write of the mailbox that is followed by a poll for the reply. -/
inductive Site where
  | resetHw
  | negotiateApiVersion
  | negotiateFeatures
  | getQueues
  | updateXcastMode
  | updateMcAddrList
  | setUcAddr
  | setVfta
  | setRlpml
  | setRar
  /-- `get_link_state` of `ixgbevf_up_complete` -/
  | getLinkState
  /-- `check_link` of `ixgbevf_watchdog_update_link` -/
  | watchdogLink
  /-- `check_link` of `ixgbevf_link_test` -/
  | linkTest
  | getReta
  | getRssKey
deriving DecidableEq, Repr

/-- The call sites that do not hold `mbx_lock`. -/
def Site.unlocked : Site → Bool
  | resetHw | getLinkState | linkTest => true
  | _ => false

/-- What code does with the mailbox: a write followed by a poll, or a lone read. -/
inductive Act where
  | transact (site : Site)
  | read
deriving DecidableEq, Repr

/-- The lock under which the driver does it. -/
def Act.needs : Act → Option Lock
  | transact site => if site.unlocked then none else some .mbx
  | read => none

/-- Code of the driver. -/
abbrev Work := Code Lock Act

open Code

/-- A write followed by a poll, at a call site. -/
def transact (site : Site) : Work := act (.transact site)

/-- Code under `mbx_lock`. -/
def underMbxLock (cs : List Work) : Work := locked .mbx (all cs)

/-! ### Functions of the source -/

/-- `ixgbevf_negotiate_api`: seven versions at most, then the features. -/
def negotiateApi : Work :=
  underMbxLock [transact .negotiateApiVersion, upTo 6 (transact .negotiateApiVersion),
    opt (transact .negotiateFeatures)]

/-- `ixgbevf_reset`. -/
def reset : Work := opt (all [opt (transact .resetHw), opt negotiateApi])

/-- `ixgbevf_down`. -/
def down : Work := opt (opt reset)

/-- `ixgbevf_configure_dcb` and `ixgbevf_set_num_queues`. -/
def fetchQueues : Work := underMbxLock [opt (transact .getQueues)]

/-- `ixgbevf_set_rx_mode`, with `ixgbevf_write_uc_addr_list`. -/
def setRxMode : Work :=
  underMbxLock [opt (transact .updateXcastMode), transact .updateMcAddrList,
    either (many (transact .setUcAddr)) (transact .setUcAddr)]

/-- `ixgbevf_vlan_rx_add_vid` and `ixgbevf_vlan_rx_kill_vid`. -/
def vlanRxVid : Work := underMbxLock [transact .setVfta]

/-- `ixgbevf_restore_vlan`. -/
def restoreVlan : Work := many vlanRxVid

/-- `ixgbevf_configure_rx`. -/
def configureRx : Work := underMbxLock [transact .setRlpml]

/-- `ixgbevf_configure`. -/
def configure : Work := all [fetchQueues, setRxMode, restoreVlan, configureRx]

/-- `ixgbevf_up_complete`. -/
def upComplete : Work := all [underMbxLock [transact .setRar], transact .getLinkState]

/-- `ixgbevf_up`. -/
def up : Work := all [configure, upComplete]

/-- `ixgbevf_reinit_locked`. -/
def reinitLocked : Work := locked .resetting (all [down, up])

/-- `ixgbevf_open`: without rings or an interrupt it resets again. -/
def ixgbevfOpen : Work :=
  opt (all [opt reset,
    opt (either reset (all [configure, either reset upComplete]))])

/-- `ixgbevf_close`, and `ixgbevf_close_suspend`. -/
def ixgbevfClose : Work := down

/-- The queues are made anew, as in `ixgbevf_queue_reset_subtask` and `ixgbevf_xdp_setup`. -/
def reinitQueues : Work := all [opt ixgbevfClose, fetchQueues, opt ixgbevfOpen]

/-- `ixgbe_check_mac_link_vf`, called at a call site: on E610 the PF is asked for the link
state, and then the mailbox is read. -/
def checkMacLinkVf (site : Site) : Work := opt (all [opt (transact site), opt (act .read)])

/-- `ixgbevf_queue_reset_subtask`. -/
def queueResetSubtask : Work := opt (locked .rtnl reinitQueues)

/-- `ixgbevf_reset_subtask`. -/
def resetSubtask : Work := opt (locked .rtnl (opt reinitLocked))

/-- `ixgbevf_watchdog_subtask`. -/
def watchdogSubtask : Work := opt (underMbxLock [checkMacLinkVf .watchdogLink])

/-- `ixgbevf_link_test`. -/
def linkTest : Work := checkMacLinkVf .linkTest

/-! ### Entry points -/

/-- The entry points, with what the kernel holds when it calls them. -/
inductive Entry where
  | ndoOpen
  | ndoStop
  | serviceTask
  | ndoSetRxMode
  | setMac
  | vlanRxAddVid
  | vlanRxKillVid
  | changeMtu
  | xdpSetup
  | setRingparam
  | setRxCsum
  | setPrivFlags
  | nwayReset
  | diagTest
  | getRxfh
  | suspend
  | resume
  | ioErrorDetected
  | ioSlotReset
  | ioResume
deriving DecidableEq, Repr

/-- What an entry point does. -/
def Entry.code : Entry → Work
  | ndoOpen => locked .rtnl ixgbevfOpen
  | ndoStop => locked .rtnl ixgbevfClose
  | serviceTask =>
    locked .service
      (either (opt (locked .rtnl down)) (all [queueResetSubtask, resetSubtask, watchdogSubtask]))
  | ndoSetRxMode => locked .addr setRxMode
  | setMac => locked .rtnl (opt (underMbxLock [transact .setRar]))
  | vlanRxAddVid => locked .rtnl vlanRxVid
  | vlanRxKillVid => locked .rtnl vlanRxVid
  | changeMtu =>
    locked .rtnl (opt (all [underMbxLock [transact .setRlpml], opt reinitLocked]))
  | xdpSetup => locked .rtnl (opt reinitQueues)
  | setRingparam => locked .rtnl (opt (locked .resetting (opt (all [down, up]))))
  | setRxCsum => locked .rtnl (either (opt reinitLocked) reset)
  | setPrivFlags => locked .rtnl (opt reinitLocked)
  | nwayReset => locked .rtnl (opt reinitLocked)
  | diagTest =>
    locked .rtnl (opt (all [linkTest,
      opt (all [either ixgbevfClose reset, reset, opt ixgbevfOpen])]))
  | getRxfh => locked .rtnl (opt (underMbxLock [opt (transact .getReta), opt (transact .getRssKey)]))
  | suspend => locked .rtnl (opt ixgbevfClose)
  | resume => opt (all [reset, locked .rtnl (all [fetchQueues, opt ixgbevfOpen])])
  | ioErrorDetected => opt (locked .rtnl (opt ixgbevfClose))
  | ioSlotReset => opt reset
  | ioResume => locked .rtnl (opt ixgbevfOpen)

/-! ### Which call sites hold the lock -/

section Guarded

variable {held : List Lock}

@[simp] theorem guarded_transact {site : Site} :
  Guarded Act.needs held (transact site) ↔ (site.unlocked = false → .mbx ∈ held)
  := by
  simp [transact, Act.needs]

@[simp] theorem guarded_underMbxLock {cs : List Work} :
  Guarded Act.needs held (underMbxLock cs)
    ↔ .mbx ∉ held ∧ ∀ c ∈ cs, Guarded Act.needs (.mbx :: held) c
  := by
  simp [underMbxLock]

/-- The functions that end without the lock may be called when it is not held. -/
theorem guarded_negotiateApi (h : .mbx ∉ held) : Guarded Act.needs held negotiateApi := by
  have htry : Guarded Act.needs (.mbx :: held) (transact .negotiateApiVersion) := by simp
  have htries := guarded_upTo Act.needs htry 6
  simp [negotiateApi, h, htries]

theorem guarded_reset (h : .mbx ∉ held) : Guarded Act.needs held reset := by
  simp [reset, Site.unlocked, guarded_negotiateApi h]

theorem guarded_down (h : .mbx ∉ held) : Guarded Act.needs held down := by
  simp [down, guarded_reset h]

theorem guarded_fetchQueues (h : .mbx ∉ held) : Guarded Act.needs held fetchQueues := by
  simp [fetchQueues, h]

theorem guarded_setRxMode (h : .mbx ∉ held) : Guarded Act.needs held setRxMode := by
  simp [setRxMode, h]

theorem guarded_vlanRxVid (h : .mbx ∉ held) : Guarded Act.needs held vlanRxVid := by
  simp [vlanRxVid, h]

theorem guarded_configure (h : .mbx ∉ held) : Guarded Act.needs held configure := by
  simp [configure, restoreVlan, configureRx, guarded_fetchQueues, guarded_setRxMode,
    guarded_vlanRxVid, h]

theorem guarded_upComplete (h : .mbx ∉ held) : Guarded Act.needs held upComplete := by
  simp [upComplete, Site.unlocked, h]

theorem guarded_reinitLocked (h : .mbx ∉ held) (h' : .resetting ∉ held) :
  Guarded Act.needs held reinitLocked
  := by
  simp [reinitLocked, up, guarded_down, guarded_configure, guarded_upComplete, h, h']

theorem guarded_open (h : .mbx ∉ held) : Guarded Act.needs held ixgbevfOpen := by
  simp [ixgbevfOpen, guarded_reset, guarded_configure, guarded_upComplete, h]

theorem guarded_reinitQueues (h : .mbx ∉ held) : Guarded Act.needs held reinitQueues := by
  simp [reinitQueues, ixgbevfClose, guarded_down, guarded_fetchQueues, guarded_open, h]

theorem guarded_linkTest : Guarded Act.needs held linkTest := by
  simp [linkTest, checkMacLinkVf, Act.needs, Site.unlocked]

theorem guarded_watchdogSubtask (h : .mbx ∉ held) : Guarded Act.needs held watchdogSubtask := by
  simp [watchdogSubtask, checkMacLinkVf, Act.needs, h]

/-- Every entry point takes the locks in turn, and writes the mailbox under `mbx_lock` but
at the three call sites that are marked. -/
theorem Entry.guarded (e : Entry) : Guarded Act.needs [] e.code := by
  cases e <;>
    simp [Entry.code, queueResetSubtask, resetSubtask, ixgbevfClose, up, guarded_reset,
      guarded_down, guarded_fetchQueues, guarded_setRxMode, guarded_vlanRxVid,
      guarded_configure, guarded_upComplete, guarded_reinitLocked, guarded_open,
      guarded_reinitQueues, guarded_linkTest, guarded_watchdogSubtask]

end Guarded

end Ixgbevf.Mailbox
