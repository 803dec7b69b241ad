import WorldDat.Digits.BigEndian
import WorldDat.Digits.Order
import WorldDat.FlatPeerMap.Agreement
import WorldDat.FlatPeerMap.Basic
import WorldDat.FlatPeerMap.Closeness
import WorldDat.FlatPeerMap.Coverage
import WorldDat.FlatPeerMap.Eviction
import WorldDat.FlatPeerMap.Insertion
import WorldDat.FlatPeerMap.Lookup
import WorldDat.FlatPeerMap.Packed
import WorldDat.FlatPeerMap.Panics
import WorldDat.FlatPeerMap.Search
import WorldDat.FlatPeerMap.Tenancy
import WorldDat.Hash
import WorldDat.LastBucket
import WorldDat.Listing.Blocks
import WorldDat.Listing.Granted
import WorldDat.Listing.LastChange
import WorldDat.Listing.LatestWrite
import WorldDat.Listing.Outward
import WorldDat.Listing.Passes
import WorldDat.Listing.Positions
import WorldDat.Listing.Readings
import WorldDat.Listing.Reordered
import WorldDat.Listing.Settled
import WorldDat.Listing.Trailing
import WorldDat.Machine.DelayQueue
import WorldDat.Machine.Execution
import WorldDat.Machine.Refinement
import WorldDat.Machine.Termination
import WorldDat.Neighborhood
import WorldDat.Network.Agreement
import WorldDat.Network.Basic
import WorldDat.Network.Choices
import WorldDat.Network.Convergence
import WorldDat.Network.Discovery
import WorldDat.Network.Introductions
import WorldDat.Network.PingStorm
import WorldDat.Network.Seeds
import WorldDat.Network.Storms
import WorldDat.Network.Truthful
import WorldDat.Order
import WorldDat.PeerMap.Alike
import WorldDat.PeerMap.Basic
import WorldDat.PeerMap.Closeness
import WorldDat.PeerMap.Coverage
import WorldDat.PeerMap.Search
import WorldDat.Rank
import WorldDat.Rust.Deserialization
import WorldDat.Rust.HashMap
import WorldDat.Rust.Panic
import WorldDat.Serde.Basic
import WorldDat.Serde.Decoding
import WorldDat.Serde.Safety
import WorldDat.Serde.Spelling
import WorldDat.Sim.Basic
import WorldDat.Sim.Bootstrap
import WorldDat.Sim.Delivery
import WorldDat.Sim.Gathering
import WorldDat.Sim.Joining
import WorldDat.Sim.Progress
import WorldDat.Sim.Refinement
import WorldDat.Sim.Shutdown
import WorldDat.Sim.Step
import WorldDat.Sim.Takeover
import WorldDat.Sim.Traffic
import WorldDat.Sim.Truthful
import WorldDat.Spread
import WorldDat.Types
import WorldDat.Worker.Basic
import WorldDat.Worker.Contacts
import WorldDat.Worker.Drop
import WorldDat.Worker.History
import WorldDat.Worker.Lookup
import WorldDat.Worker.Neighbors
import WorldDat.Worker.Quit
import WorldDat.Worker.Session
import WorldDat.Worker.Solicited
