import Asapo.Acknowledgement
import Asapo.Authorizer.BeamtimeLookup
import Asapo.Authorizer.FolderToken
import Asapo.Authorizer.Recovery
import Asapo.Authorizer.Revocation
import Asapo.Authorizer.SourceCredentials
import Asapo.Authorizer.TokenStore
import Asapo.Broker.Acknowledged
import Asapo.Broker.Completeness
import Asapo.Broker.Encoding
import Asapo.Broker.Flow
import Asapo.Broker.Group
import Asapo.Broker.GroupedLast
import Asapo.Broker.HandedOut
import Asapo.Broker.KeyIsolation
import Asapo.Broker.Nacks
import Asapo.Broker.Names
import Asapo.Broker.NextRecord
import Asapo.Broker.Pointer
import Asapo.Broker.PointerFailure
import Asapo.Broker.Query
import Asapo.Broker.QueryEscape
import Asapo.Broker.QueryFaithful
import Asapo.Broker.QueryMeaning
import Asapo.Broker.Redelivery
import Asapo.Broker.ResetCounter
import Asapo.Broker.Routing
import Asapo.Broker.SequentialNext
import Asapo.Broker.StreamCache
import Asapo.Broker.StreamFilter
import Asapo.Broker.StreamList
import Asapo.Broker.StreamRecords
import Asapo.Broker.StreamSearch
import Asapo.Common.DataStructs
import Asapo.Common.Directories
import Asapo.Common.EncodingJson
import Asapo.Common.Error
import Asapo.Common.Http
import Asapo.Common.JsonParser
import Asapo.Common.Networking
import Asapo.Common.RecordJson
import Asapo.Common.RequestHeader
import Asapo.Common.SystemIO
import Asapo.Consumer.BrokerRequests
import Asapo.Consumer.ExclusiveUse
import Asapo.Consumer.FolderImport
import Asapo.Consumer.FolderToDbImporter
import Asapo.Consumer.ImportedRecords
import Asapo.Consumer.PoolEntries
import Asapo.Consumer.RetrieveData
import Asapo.Consumer.ServerErrors
import Asapo.Consumer.ServiceRequests
import Asapo.Consumer.TcpConnectionPool
import Asapo.Consumer.TcpConsumerClient
import Asapo.CredentialTransport
import Asapo.Database.ByteEncoding
import Asapo.Database.CollectionHandle
import Asapo.Database.DatasetIngestion
import Asapo.Database.DatasetSafety
import Asapo.Database.DeleteStream
import Asapo.Database.Documents
import Asapo.Database.Encoding
import Asapo.Database.MetaUpdate
import Asapo.Database.MongoDBClient
import Asapo.Database.Store
import Asapo.Database.StreamInfo
import Asapo.DeletedStream
import Asapo.EndOfStream
import Asapo.EventMonitor.FolderWatch
import Asapo.FileStreaming
import Asapo.FileTransfer.Transfer
import Asapo.FolderTree
import Asapo.Framing
import Asapo.HeaderTransport
import Asapo.Interleaving
import Asapo.Json
import Asapo.JsonFields
import Asapo.JsonInsertion
import Asapo.LastStream
import Asapo.Lifecycle
import Asapo.Memory
import Asapo.NameAgreement
import Asapo.NextCall
import Asapo.NextCallSafety
import Asapo.Path
import Asapo.PercentEncoding
import Asapo.Producer.Callbacks
import Asapo.Producer.ConnectionLimit
import Asapo.Producer.HandlerExits
import Asapo.Producer.PoolAccounting
import Asapo.Producer.ProducerRequest
import Asapo.Producer.RequestHandlers
import Asapo.Producer.RequestPool
import Asapo.Producer.Response
import Asapo.Producer.SendFile
import Asapo.Producer.SendOrder
import Asapo.Producer.Submission
import Asapo.Receiver.Arrival
import Asapo.Receiver.Authorization
import Asapo.Receiver.AuthorizationSafety
import Asapo.Receiver.CacheEviction
import Asapo.Receiver.CacheLaps
import Asapo.Receiver.CacheLocks
import Asapo.Receiver.CacheSafety
import Asapo.Receiver.Confinement
import Asapo.Receiver.Consumption
import Asapo.Receiver.DataCache
import Asapo.Receiver.DataServer
import Asapo.Receiver.Disk
import Asapo.Receiver.Duplicates
import Asapo.Receiver.HandlerFrames
import Asapo.Receiver.Handlers
import Asapo.Receiver.Payload
import Asapo.Receiver.PayloadSafety
import Asapo.Receiver.RecordPlace
import Asapo.Receiver.Request
import Asapo.Receiver.Resending
import Asapo.Receiver.ServedData
import Asapo.Receiver.SlotGrants
import Asapo.Receiver.Storing
import Asapo.Receiver.WorldFrames
import Asapo.Regex
import Asapo.RequestDelivery
import Asapo.RequestRouting
import Asapo.StreamDeletion
import Asapo.StreamInfoAgreement
import Asapo.StreamOperations
import Asapo.StreamReuse
import Asapo.StreamReuseSteps
import Asapo.Tiling
import Asapo.TokenAccess
import Asapo.Transition
import Asapo.UrlQuery
import Asapo.WorkLeft
