import Ixgbevf.Rx.Geometry
import Ixgbevf.Rx.Mappings
import Ixgbevf.Rx.Halves
import Ixgbevf.Rx.Frames
import Ixgbevf.Rx.Pruning
import Ixgbevf.Rx.Budget
import Ixgbevf.Rx.Supply
import Ixgbevf.Rx.Verdicts
import Ixgbevf.Rx.Moves
import Ixgbevf.Rx.Timestamp
import Ixgbevf.Queues.SingleBuffer
import Ixgbevf.Queues.Bounds
import Ixgbevf.Queues.Drift
import Ixgbevf.Queues.Vectors
import Ixgbevf.Itr
import Ixgbevf.Itr.Threshold
import Ixgbevf.Link.Sound
import Ixgbevf.Link.Errors
import Ixgbevf.Lib.Cyclic
import Ixgbevf.Tx.Ring
import Ixgbevf.Tx.Map
import Ixgbevf.Lib.Tiles
import Ixgbevf.Tx.Wake
import Ixgbevf.Tx.Headers
import Ixgbevf.Tx.Chain
import Ixgbevf.Tx.Frames
import Ixgbevf.Tx.Capacity
import Ixgbevf.Tx.Rollback
import Ixgbevf.Tx.Slots
import Ixgbevf.Tx.Ownership
import Ixgbevf.Tx.Accounts
import Ixgbevf.Tx.Threshold
import Ixgbevf.Tx.Checksum
import Ixgbevf.Replies
import Ixgbevf.Mailbox.Serial
import Ixgbevf.Mailbox.Delivery
import Ixgbevf.Mailbox.Events
import Ixgbevf.Service
import Ixgbevf.Service.Schedule
import Ixgbevf.Interface
import Ixgbevf.Interface.Runs
import Ixgbevf.Interface.Open
import Ixgbevf.Interface.Teardown
import Ixgbevf.Rss
import Ixgbevf.Stats
import Ixgbevf.Stats.Extension
import Ixgbevf.Stats.Aggregate
import Ixgbevf.Stats.Ethtool
import Ixgbevf.BusyPoll
import Ixgbevf.Mac
import Ixgbevf.Mailbox.Contents
import Ixgbevf.Mailbox.Macvlans
import Ixgbevf.Callbacks
import Ixgbevf.Vlans
import Ixgbevf.HyperV
import Ixgbevf.Mailbox.Freshness
import Ixgbevf.Mailbox.Lock
import Ixgbevf.Queues.Routing
import Ixgbevf.Interface.Ringparam
import Ixgbevf.Interface.Resize
import Ixgbevf.Lib.Polling
import Ixgbevf.Napi
import Ixgbevf.Lib.Watchdog
import Ixgbevf.Tx.Bql
import Ixgbevf.Tx.Hang
import Ixgbevf.Lib.SingleFlight
import Ixgbevf.Lib.Since
import Ixgbevf.Lib.Packing
import Ixgbevf.Rss.Redirection
import Ixgbevf.Mailbox.RxMode
import Ixgbevf.Lifetime
import Ixgbevf.Lib.Cell
import Ixgbevf.RegTest
import Ixgbevf.Rss.Report
import Ixgbevf.Lib.Latch
import Ixgbevf.Link.Carrier
