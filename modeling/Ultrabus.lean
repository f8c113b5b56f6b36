import Ultrabus.Lib.Exec
import Ultrabus.Lib.Transition
import Ultrabus.Value.Equality
import Ultrabus.Value.ThreeWay
import Ultrabus.Value.TotalOrder
import Ultrabus.Value.Factory
import Ultrabus.Value.StructInvariant
import Ultrabus.Value.ArrayFailures
import Ultrabus.Value.DictMap
import Ultrabus.Value.ElementTypes
import Ultrabus.Value.VariantContents
import Ultrabus.Value.SelfAssignment
import Ultrabus.Value.TextInvariant
import Ultrabus.Value.DictSignature
import Ultrabus.Value.Integers
import Ultrabus.Message.RoundTrip
import Ultrabus.Message.Lossless
import Ultrabus.Message.TypedTargets
import Ultrabus.Message.Json
import Ultrabus.Connection.PendingCall
import Ultrabus.Connection.SendAndWait
import Ultrabus.Connection.BusReplies
import Ultrabus.Connection.Timers
import Ultrabus.Connection.NameSignals
import Ultrabus.Filter.MatchRules
import Ultrabus.Filter.Deadlock
import Ultrabus.Filter.AsyncCalls
import Ultrabus.Connection.Epochs
import Ultrabus.Connection.TimerList
import Ultrabus.Connection.RemovalWindows
import Ultrabus.Connection.Dispatcher
import Ultrabus.Connection.TeardownClients
import Ultrabus.Connection.TeardownCalls
import Ultrabus.Connection.Lifetime
import Ultrabus.Connection.Refusals
import Ultrabus.Connection.EventDelivery
import Ultrabus.Proxy.Callbacks
import Ultrabus.Proxy.Signals
import Ultrabus.Proxy.SignalScope
import Ultrabus.Message.DictEntries
import Ultrabus.Connection.TimeStamps
import Ultrabus.Connection.ObjectPaths
import Ultrabus.Proxy.Results
import Ultrabus.Proxy.RuleMeaning
import Ultrabus.Interfaces.ManagedObjects
import Ultrabus.Interfaces.Properties
import Ultrabus.Interfaces.CallbackRuns
import Ultrabus.Message.HandleValues
import Ultrabus.Message.JsonSummary
import Ultrabus.Connection.ObjectTree
import Ultrabus.Filter.SharedRules
import Ultrabus.Connection.ReplyRouting
import Ultrabus.Connection.PeriodicTimers
import Ultrabus.Message.Forwarding
import Ultrabus.Connection.Locking
