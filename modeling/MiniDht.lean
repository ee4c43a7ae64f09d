import MiniDht.Lib.Closest
import MiniDht.Lib.Sqlite
import MiniDht.Bucket
import MiniDht.Search.ShortList
import MiniDht.Db.KeyValue
import MiniDht.Db.Lookup
import MiniDht.Db.Text
import MiniDht.Db.FiniteMap
import MiniDht.Node.Run
import MiniDht.Node.Sent
import MiniDht.Search.Asking
import MiniDht.Node.Progress
import MiniDht.Node.Outcome
import MiniDht.Node.Routing
import MiniDht.Node.StoreLoss
import MiniDht.Node.QueryKey
import MiniDht.Node.Storing
import MiniDht.Node.Crash
import MiniDht.Node.Contacts
import MiniDht.Node.Answers
import MiniDht.Node.Stock
import MiniDht.Node.Limit
import MiniDht.Node.Sweep
import MiniDht.Network
import MiniDht.Session.Broken
import MiniDht.Session.Framing
import MiniDht.Node.Standing
import MiniDht.Node.Pings
import MiniDht.Node.Acks
import MiniDht.Db.Locks
import MiniDht.Node.GiantLock
import MiniDht.Node.Refresh
import MiniDht.Bucket.Removal
import MiniDht.Bucket.Eviction
import MiniDht.Bucket.Memo
import MiniDht.Bucket.Targets
import MiniDht.Node.Packet
import MiniDht.Db.Atomic
import MiniDht.Db.Oldest
import MiniDht.Node.Newest
import MiniDht.Session.Queue
import MiniDht.Session.Release
import MiniDht.Db.Listings
import MiniDht.Node.Restore
import MiniDht.Node.Expiry
import MiniDht.Node.ValueSearch
import MiniDht.Node.StoreEnd
import MiniDht.Node.Identity
import MiniDht.Node.Republish
import MiniDht.Session.Header
import MiniDht.KeyDigest
import MiniDht.Search.Nearness
import MiniDht.EndpointText
import MiniDht.LocalKey
import MiniDht.Network.Traffic
import MiniDht.Network.Simulation
import MiniDht.Session.Leak
import MiniDht.Network.Values
import MiniDht.Network.Greeting
import MiniDht.Network.Reunion
import MiniDht.Network.Delivery
