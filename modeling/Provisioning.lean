import Provisioning.Lib.Prog
import Provisioning.Lib.Pool
import Provisioning.Lib.Attempt
import Provisioning.Lib.Stream
import Provisioning.Lib.StreamLog
import Provisioning.Lib.Bucket
import Provisioning.Lib.Rely
import Provisioning.Lib.Fanout
import Provisioning.Lib.Machine
import Provisioning.Lib.Revision
import Provisioning.Lib.TaskGroup
import Provisioning.Lib.Url
import Provisioning.Lib.Subject
import Provisioning.Lib.Paths
import Provisioning.Lib.Replica
import Provisioning.Lib.Queue
import Provisioning.Lib.Mirror
import Provisioning.Model.Data
import Provisioning.Model.Nats
import Provisioning.Model.Effects
import Provisioning.Model.Adapter
import Provisioning.Model.Subscriptions
import Provisioning.Model.Messages
import Provisioning.Model.Prefill
import Provisioning.Model.Dispatcher
import Provisioning.Model.Transformer
import Provisioning.Model.System
import Provisioning.Model.Calls
import Provisioning.Model.Registry
import Provisioning.Model.DispatchLoop
import Provisioning.Model.Consumer
import Provisioning.Model.KeyValue
import Provisioning.Model.AckManager
import Provisioning.Model.Conversation
import Provisioning.Model.InternalApi
import Provisioning.Model.Delivery
import Provisioning.Model.Api
import Provisioning.Model.Listener
import Provisioning.Model.Pipeline
import Provisioning.Model.Relay
import Provisioning.Properties.RecordHasStream
import Provisioning.Properties.DeletionRetry
import Provisioning.Properties.RegistrationRetry
import Provisioning.Properties.TopicMatching
import Provisioning.Properties.PrefillGate
import Provisioning.Properties.PrefillFirst
import Provisioning.Properties.DeletionFinal
import Provisioning.Properties.RegistrationRace
import Provisioning.Properties.TransformerAttempt
import Provisioning.Properties.TransformerRetry
import Provisioning.Properties.PrefillRounds
import Provisioning.Properties.PrefillRequests
import Provisioning.Properties.PrefillExact
import Provisioning.Properties.RegistryRefinement
import Provisioning.Properties.SubscriptionFrame
import Provisioning.Properties.MappingRefresh
import Provisioning.Properties.SubscriptionListings
import Provisioning.Properties.RetryLimit
import Provisioning.Properties.DoneFinal
import Provisioning.Properties.RegisteredEvents
import Provisioning.Properties.DispatchOrder
import Provisioning.Properties.Consumption
import Provisioning.Properties.DeletionEvents
import Provisioning.Properties.RecordNames
import Provisioning.Properties.EventFanOut
import Provisioning.Properties.CompareAndSet
import Provisioning.Properties.PasswordCache
import Provisioning.Properties.Settlement
import Provisioning.Properties.DescribedMessages
import Provisioning.Properties.PoppedMessages
import Provisioning.Properties.AtMostOnce
import Provisioning.Properties.AcknowledgementRetries
import Provisioning.Properties.PrefillReports
import Provisioning.Properties.SequenceNumbers
import Provisioning.Properties.LiveMessages
import Provisioning.Properties.EventsKept
import Provisioning.Properties.Authorization
import Provisioning.Properties.DirectoryAttempts
import Provisioning.Properties.DirectoryReplica
import Provisioning.Properties.DirectoryCatchUp
import Provisioning.Properties.RelayRefinement
import Provisioning.Properties.SubscriberReplica
import Provisioning.Properties.CallbackOrder
import Provisioning.Properties.ConsumerCatchUp
