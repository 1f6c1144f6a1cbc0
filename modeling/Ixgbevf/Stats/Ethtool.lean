import Ixgbevf.Stats.Aggregate

/-!
# The statistics of ethtool

The number of statistics, their names and their values come from three enumerations.  The names
and the values agree with each other; the number takes every queue for one with all fields of
`struct ixgbevf_stats`, and the queues for XDP do not have those of `BP_EXTENDED_STATS`.
-/

namespace Ixgbevf.Stats

/-! ### Network statistics -/

/-- The fields of `struct rtnl_link_stats64` that the driver sets. -/
structure LinkStats where
  /-- `rx_packets`. -/
  rxPackets : BitVec 64
  /-- `tx_packets`. -/
  txPackets : BitVec 64
  /-- `rx_bytes`. -/
  rxBytes : BitVec 64
  /-- `tx_bytes`. -/
  txBytes : BitVec 64
  /-- `multicast`. -/
  multicast : BitVec 64
  deriving DecidableEq, Repr

namespace Adapter

/-- `ixgbevf_get_stats64`, for statistics that the kernel has cleared: its loops skip the rings
that do not exist. -/
def getStats64 (a : Adapter) : LinkStats :=
  { rxPackets := total (fun r => r.stats.packets) a.rxRing a.numRxQueues
    txPackets := total (fun r => r.stats.packets) a.txRing a.numTxQueues
      + total (fun r => r.stats.packets) a.xdpRing a.numXdpQueues
    rxBytes := total (fun r => r.stats.bytes) a.rxRing a.numRxQueues
    txBytes := total (fun r => r.stats.bytes) a.txRing a.numTxQueues
      + total (fun r => r.stats.bytes) a.xdpRing a.numXdpQueues
    multicast := (a.device.stats .vfmprc).value - (a.device.stats .vfmprc).base }

end Adapter

/-! ### The three enumerations -/

/-- Where a statistic of `ixgbe_gstrings_stats` is: `NETDEV_STATS`, or `IXGBEVF_STATS` with the
size of the field. -/
inductive StatField where
  | netdev (field : LinkStats → BitVec 64)
  | ixgbevf64 (field : Adapter → BitVec 64)
  | ixgbevf32 (field : Adapter → BitVec 32)

/-- `struct ixgbe_stats`. -/
structure IxgbeStats where
  /-- `stat_string`. -/
  statString : String
  /-- `type`, `sizeof_stat` and `stat_offset`. -/
  field : StatField

/-- `ixgbe_gstrings_stats`. -/
def ixgbeGstringsStats : List IxgbeStats :=
  [{ statString := "rx_packets", field := .netdev (·.rxPackets) },
    { statString := "tx_packets", field := .netdev (·.txPackets) },
    { statString := "rx_bytes", field := .netdev (·.rxBytes) },
    { statString := "tx_bytes", field := .netdev (·.txBytes) },
    { statString := "tx_busy", field := .ixgbevf64 (·.txBusy) },
    { statString := "tx_restart_queue", field := .ixgbevf64 (·.restartQueue) },
    { statString := "tx_timeout_count", field := .ixgbevf32 (·.txTimeoutCount) },
    { statString := "multicast", field := .netdev (·.multicast) },
    { statString := "rx_csum_offload_errors", field := .ixgbevf64 (·.hwCsumRxError) },
    { statString := "alloc_rx_page", field := .ixgbevf64 (·.allocRxPage) },
    { statString := "alloc_rx_page_failed", field := .ixgbevf64 (·.allocRxPageFailed) },
    { statString := "alloc_rx_buff_failed", field := .ixgbevf64 (·.allocRxBuffFailed) }]

/-- `ETH_GSTRING_LEN`. -/
def ethGstringLen : ℕ := 32

/-- What `snprintf` leaves of a string in a buffer of `ETH_GSTRING_LEN` bytes. -/
def gstring (text : String) : String := String.ofList (text.toList.take (ethGstringLen - 1))

/-- The sets of strings that ethtool asks for. -/
inductive StringSet where
  | test
  | stats
  | privFlags
  | other
  deriving DecidableEq, Repr

/-- `ixgbe_gstrings_test`. -/
def ixgbeGstringsTest : List String := ["Register test  (offline)", "Link test   (on/offline)"]

/-- `ixgbevf_priv_flags_strings`. -/
def ixgbevfPrivFlagsStrings : List String := ["legacy-rx"]

variable (bpExtendedStats : Bool)

/-- The number of fields of `struct ixgbevf_stats`. -/
def queueStatsWords : ℕ := if bpExtendedStats then 5 else 2

namespace Adapter

/-- `ixgbevf_get_sset_count`; without a result it returns `-EINVAL`. -/
def getSsetCount (a : Adapter) : StringSet → Option ℕ
  | .test => some ixgbeGstringsTest.length
  | .stats => some (ixgbeGstringsStats.length
      + (a.numTxQueues + a.numXdpQueues + a.numRxQueues) * queueStatsWords bpExtendedStats)
  | .privFlags => some ixgbevfPrivFlagsStrings.length
  | .other => none

/-- `ixgbevf_get_strings`. -/
def getStrings (a : Adapter) : StringSet → List String
  | .test => ixgbeGstringsTest
  | .stats =>
    ixgbeGstringsStats.map (·.statString)
    ++ (List.range a.numTxQueues).flatMap (fun i =>
      [gstring s!"tx_queue_{i}_packets", gstring s!"tx_queue_{i}_bytes"]
      ++ if bpExtendedStats then
          [gstring s!"tx_queue_{i}_bp_napi_yield", gstring s!"tx_queue_{i}_bp_misses",
            gstring s!"tx_queue_{i}_bp_cleaned"]
        else
          [])
    ++ (List.range a.numXdpQueues).flatMap (fun i =>
      [gstring s!"xdp_queue_{i}_packets", gstring s!"xdp_queue_{i}_bytes"])
    ++ (List.range a.numRxQueues).flatMap (fun i =>
      [gstring s!"rx_queue_{i}_packets", gstring s!"rx_queue_{i}_bytes"]
      ++ if bpExtendedStats then
          [gstring s!"rx_queue_{i}_bp_poll_yield", gstring s!"rx_queue_{i}_bp_misses",
            gstring s!"rx_queue_{i}_bp_cleaned"]
        else
          [])
  | .privFlags => ixgbevfPrivFlagsStrings
  | .other => []

end Adapter

/-- What `ixgbevf_get_ethtool_stats` writes for a statistic of the table. -/
def StatField.value (a : Adapter) : StatField → BitVec 64
  | .netdev field => field a.getStats64
  | .ixgbevf64 field => field a
  | .ixgbevf32 field => (field a).setWidth 64

/-- What it writes for a ring, with the fields of `BP_EXTENDED_STATS` or without them: zeros, if
there is none. -/
def ringValues : Option Ring → List (BitVec 64)
  | none => [0, 0] ++ if bpExtendedStats then [0, 0, 0] else []
  | some r =>
    [r.stats.packets, r.stats.bytes]
    ++ if bpExtendedStats then [r.stats.yields, r.stats.misses, r.stats.cleaned] else []

/-- `ixgbevf_get_ethtool_stats`. -/
def Adapter.getEthtoolStats (a : Adapter) : Option (List (BitVec 64)) := do
  let a ← a.updateStats
  return ixgbeGstringsStats.map (fun s => s.field.value a)
    ++ (List.range a.numTxQueues).flatMap (fun j => ringValues bpExtendedStats (a.txRing j))
    -- there are no extended statistics of the queues for XDP
    ++ (List.range a.numXdpQueues).flatMap (fun j => ringValues false (a.xdpRing j))
    ++ (List.range a.numRxQueues).flatMap (fun j => ringValues bpExtendedStats (a.rxRing j))

/-! ### Counters and their names -/

/-- The counters of the adapter. -/
inductive GlobalCounter where
  | rxPackets
  | txPackets
  | rxBytes
  | txBytes
  | txBusy
  | txRestartQueue
  | txTimeoutCount
  | multicast
  | rxCsumOffloadErrors
  | allocRxPage
  | allocRxPageFailed
  | allocRxBuffFailed

/-- The kinds of queues. -/
inductive QueueKind where
  | tx
  | xdp
  | rx

/-- The counters of a queue. -/
inductive QueueCounter where
  | packets
  | bytes
  | yields
  | misses
  | cleaned

/-- A counter that has a name. -/
inductive NamedCounter where
  | adapter (c : GlobalCounter)
  | queue (kind : QueueKind) (i : ℕ) (c : QueueCounter)

/-- The name of a counter of the adapter. -/
def GlobalCounter.name : GlobalCounter → String
  | rxPackets => "rx_packets"
  | txPackets => "tx_packets"
  | rxBytes => "rx_bytes"
  | txBytes => "tx_bytes"
  | txBusy => "tx_busy"
  | txRestartQueue => "tx_restart_queue"
  | txTimeoutCount => "tx_timeout_count"
  | multicast => "multicast"
  | rxCsumOffloadErrors => "rx_csum_offload_errors"
  | allocRxPage => "alloc_rx_page"
  | allocRxPageFailed => "alloc_rx_page_failed"
  | allocRxBuffFailed => "alloc_rx_buff_failed"

/-- A counter of the adapter. -/
def GlobalCounter.value (a : Adapter) : GlobalCounter → BitVec 64
  | rxPackets => a.getStats64.rxPackets
  | txPackets => a.getStats64.txPackets
  | rxBytes => a.getStats64.rxBytes
  | txBytes => a.getStats64.txBytes
  | txBusy => a.txBusy
  | txRestartQueue => a.restartQueue
  | txTimeoutCount => a.txTimeoutCount.setWidth 64
  | multicast => a.getStats64.multicast
  | rxCsumOffloadErrors => a.hwCsumRxError
  | allocRxPage => a.allocRxPage
  | allocRxPageFailed => a.allocRxPageFailed
  | allocRxBuffFailed => a.allocRxBuffFailed

/-- How the names of the counters of a kind of queues start. -/
def QueueKind.stem : QueueKind → String
  | tx => "tx_queue_"
  | xdp => "xdp_queue_"
  | rx => "rx_queue_"

/-- The rings of a kind of queues. -/
def QueueKind.rings (a : Adapter) : QueueKind → ℕ → Option Ring
  | tx => a.txRing
  | xdp => a.xdpRing
  | rx => a.rxRing

/-- How the name of a counter of a queue ends: what busy polling makes yield is the interrupt of a
Tx queue and the poll of an Rx queue. -/
def QueueCounter.suffix : QueueKind → QueueCounter → String
  | _, packets => "_packets"
  | _, bytes => "_bytes"
  | .rx, yields => "_bp_poll_yield"
  | _, yields => "_bp_napi_yield"
  | _, misses => "_bp_misses"
  | _, cleaned => "_bp_cleaned"

/-- A counter of a queue. -/
def QueueCounter.value (s : QueueStats) : QueueCounter → BitVec 64
  | packets => s.packets
  | bytes => s.bytes
  | yields => s.yields
  | misses => s.misses
  | cleaned => s.cleaned

/-- The name of a counter. -/
def NamedCounter.name : NamedCounter → String
  | adapter c => c.name
  | queue kind i c => gstring (kind.stem ++ toString i ++ c.suffix kind)

/-- Where a counter stands: that of a queue without a ring is zero. -/
def NamedCounter.value (a : Adapter) : NamedCounter → BitVec 64
  | adapter c => c.value a
  | queue kind i c => (kind.rings a i).elim 0 fun r => c.value r.stats

/-- The counters of the adapter in the order of the table. -/
def globalCounters : List GlobalCounter :=
  [.rxPackets, .txPackets, .rxBytes, .txBytes, .txBusy, .txRestartQueue, .txTimeoutCount,
    .multicast, .rxCsumOffloadErrors, .allocRxPage, .allocRxPageFailed, .allocRxBuffFailed]

/-- The counters of a queue. -/
def queueCounters (kind : QueueKind) (i : ℕ) : List NamedCounter :=
  [.queue kind i .packets, .queue kind i .bytes]
  ++ if bpExtendedStats then
      [.queue kind i .yields, .queue kind i .misses, .queue kind i .cleaned]
    else
      []

/-- The counters that ethtool shows. -/
def Adapter.namedCounters (a : Adapter) : List NamedCounter :=
  globalCounters.map .adapter
  ++ (List.range a.numTxQueues).flatMap (queueCounters bpExtendedStats .tx)
  ++ (List.range a.numXdpQueues).flatMap (queueCounters false .xdp)
  ++ (List.range a.numRxQueues).flatMap (queueCounters bpExtendedStats .rx)

/-- The number of statistics is that of their names and that of their values, and each value is
that of the counter with the name in its place, once the statistics have been updated. -/
def Adapter.LinedUp (a : Adapter) : Prop :=
  ∃ a' values, a.updateStats = some a' ∧ a.getEthtoolStats bpExtendedStats = some values ∧
    a.getSsetCount bpExtendedStats .stats = some (a.getStrings bpExtendedStats .stats).length ∧
    values.length = (a.getStrings bpExtendedStats .stats).length ∧
    ∀ k < values.length, ∃ c : NamedCounter,
      (a.getStrings bpExtendedStats .stats)[k]? = some c.name ∧ values[k]? = some (c.value a')

variable {bpExtendedStats}

/-! ### Names and values -/

/-- The values of a ring are those of the counters of its queue. -/
theorem ringValues_eq (bp : Bool) (a : Adapter) (kind : QueueKind) (i : ℕ) :
  ringValues bp (kind.rings a i) = (queueCounters bp kind i).map (NamedCounter.value a)
  := by
  unfold queueCounters
  cases bp with
  | false =>
    cases hr : kind.rings a i <;>
      simp [ringValues, NamedCounter.value, QueueCounter.value, hr]
  | true =>
    cases hr : kind.rings a i <;>
      simp [ringValues, NamedCounter.value, QueueCounter.value, hr]

namespace Adapter

variable {a a' : Adapter}

/-- The strings are the names of the counters. -/
theorem getStrings_eq :
  a.getStrings bpExtendedStats .stats
    = (a.namedCounters bpExtendedStats).map NamedCounter.name
  := by
  unfold namedCounters getStrings
  simp only [List.map_append, List.map_flatMap]
  cases bpExtendedStats <;> rfl

/-- The values are those of the counters. -/
theorem getEthtoolStats_eq (h : a.updateStats = some a') :
  a.getEthtoolStats bpExtendedStats
    = some ((a'.namedCounters bpExtendedStats).map (NamedCounter.value a'))
  := by
  have htx (i : ℕ) := ringValues_eq bpExtendedStats a' .tx i
  have hxdp (i : ℕ) := ringValues_eq false a' .xdp i
  have hrx (i : ℕ) := ringValues_eq bpExtendedStats a' .rx i
  simp only [QueueKind.rings] at htx hxdp hrx
  unfold getEthtoolStats namedCounters
  simp only [h, Option.bind_eq_bind, Option.bind_some, List.map_append, List.map_flatMap, htx,
    hxdp, hrx]
  rfl

/-- An update does not change the number of queues. -/
theorem updateStats_namedCounters (h : a.updateStats = some a') :
  a'.namedCounters bpExtendedStats = a.namedCounters bpExtendedStats
  := by
  by_cases hskip : Skipped a.device
  · rw [updateStats_skipped hskip] at h
    cases h
    rfl
  · obtain ⟨-, -, rfl⟩ := (updateStats_eq_some hskip).mp h
    rfl

/-- There is a result of the update unless it is not skipped and a ring is missing. -/
theorem updateStats_isSome_iff :
  (∃ a', a.updateStats = some a')
    ↔ Skipped a.device ∨ Present a.rxRing (max a.numRxQueues a.numTxQueues)
  := by
  by_cases hskip : Skipped a.device
  · simp [updateStats_skipped hskip, hskip]
  · constructor
    · rintro ⟨a', h⟩
      obtain ⟨hrx, htx, -⟩ := (updateStats_eq_some hskip).mp h
      exact Or.inr (present_max.mpr ⟨hrx, htx⟩)
    · rintro (h | hpresent)
      · exact absurd h hskip
      · obtain ⟨hrx, htx⟩ := present_max.mp hpresent
        exact ⟨_, (updateStats_eq_some hskip).mpr ⟨hrx, htx, rfl⟩⟩

/-- How many counters have a name. -/
theorem namedCounters_length :
  (a.namedCounters bpExtendedStats).length = ixgbeGstringsStats.length
    + (a.numTxQueues + a.numRxQueues) * queueStatsWords bpExtendedStats + a.numXdpQueues * 2
  := by
  have hlen (bp : Bool) (kind : QueueKind) (n : ℕ) :
      ((List.range n).flatMap (queueCounters bp kind)).length = n * queueStatsWords bp := by
    have hone (i : ℕ) : (queueCounters bp kind i).length = queueStatsWords bp := by
      cases bp <;> rfl
    simp [List.length_flatMap, hone]
  unfold namedCounters
  simp only [List.length_append, hlen]
  have hglobal : (globalCounters.map NamedCounter.adapter).length = ixgbeGstringsStats.length := rfl
  have hxdp : queueStatsWords false = 2 := rfl
  rw [hglobal, hxdp, Nat.add_mul]
  omega

/-- The statistics line up exactly when no queue for XDP makes their number too large, and the
update before them follows no null pointer. -/
theorem linedUp_iff :
  a.LinedUp bpExtendedStats
    ↔ (bpExtendedStats = false ∨ a.numXdpQueues = 0) ∧
      (Skipped a.device ∨ Present a.rxRing (max a.numRxQueues a.numTxQueues))
  := by
  have hcount : a.getSsetCount bpExtendedStats .stats
      = some (a.getStrings bpExtendedStats .stats).length
        ↔ bpExtendedStats = false ∨ a.numXdpQueues = 0 := by
    rw [getStrings_eq, List.length_map, namedCounters_length, getSsetCount, Option.some_inj]
    cases bpExtendedStats with
    | false =>
      simp only [queueStatsWords, Bool.false_eq_true, if_false, true_or, iff_true]
      omega
    | true =>
      simp only [queueStatsWords, if_true, Bool.true_eq_false, false_or]
      omega
  rw [← updateStats_isSome_iff, ← hcount]
  constructor
  · rintro ⟨a', values, hupdate, -, heq, -⟩
    exact ⟨heq, a', hupdate⟩
  · rintro ⟨heq, a', hupdate⟩
    refine ⟨a', _, hupdate, getEthtoolStats_eq hupdate, heq, ?_, ?_⟩
    · rw [getStrings_eq, updateStats_namedCounters hupdate, List.length_map, List.length_map]
    · intro k hk
      rw [List.length_map, updateStats_namedCounters hupdate] at hk
      refine ⟨(a.namedCounters bpExtendedStats).get ⟨k, hk⟩, ?_, ?_⟩
      · rw [getStrings_eq, List.getElem?_map, List.getElem?_eq_getElem hk]
        rfl
      · rw [updateStats_namedCounters hupdate, List.getElem?_map, List.getElem?_eq_getElem hk]
        rfl

/-! ### Statistics that do not line up -/

/-- There is room for a queue of each kind. -/
theorem one_le_maxQueues :
  1 ≤ maxQueues
  := by decide

/-- An adapter with a queue of each kind. -/
def threeRings : Adapter :=
  { twoRings (ringWith 0 0) (ringWith 0 0) with
    numXdpQueues := 1
    xdpRing := fun i => if i = 0 then some (ringWith 0 0) else none
    xdpBound := one_le_maxQueues }

/-- An adapter whose Rx queue has no ring. -/
def missingRing : Adapter := { twoRings (ringWith 0 0) (ringWith 0 0) with rxRing := fun _ => none }

/-- With a queue for XDP there are 24 names and 27 statistics, and without the ring of an Rx queue
nothing at all. -/
theorem threeRings_not_linedUp :
  ¬ threeRings.LinedUp true ∧ threeRings.getSsetCount true .stats = some 27 ∧
    (threeRings.getStrings true .stats).length = 24 ∧
    ¬ missingRing.LinedUp false ∧ missingRing.getEthtoolStats false = none
  := by
  refine ⟨?_, by decide, ?_, ?_, rfl⟩
  · rintro ⟨a', values, -, -, hcount, -⟩
    rw [getStrings_eq, List.length_map] at hcount
    revert hcount
    decide
  · rw [getStrings_eq, List.length_map]
    decide
  · rintro ⟨a', values, hupdate, -⟩
    cases hupdate

end Adapter

end Ixgbevf.Stats
