import DevP2P.Lib.Bytes
import DevP2P.Lib.BigEndian
import DevP2P.Lib.Regroup
import DevP2P.Lib.Outcome
import DevP2P.Lib.Runs
import DevP2P.Lib.Fifo
import DevP2P.Lib.InOrder
import DevP2P.Lib.Framed
import DevP2P.Lib.LastWrite
import DevP2P.Lib.Concat
import DevP2P.Lib.Pieces
import DevP2P.Lib.Counter
import DevP2P.Lib.Ring
import DevP2P.Lib.Tally
import DevP2P.Lib.Secp256k1
import DevP2P.Lib.Curve
import DevP2P.Lib.Digest
import DevP2P.Rlp.Types
import DevP2P.Rlp.Endian
import DevP2P.Rlp.Format
import DevP2P.Rlp.Encoder
import DevP2P.Rlp.Header
import DevP2P.Rlp.Decoder
import DevP2P.Rlp.Canonical
import DevP2P.Rlp.Nested
import DevP2P.Rlp.Integral
import DevP2P.Rlp.Appends
import DevP2P.Rlp.Reads
import DevP2P.Rlp.Fields
import DevP2P.Rlp.ViewReads
import DevP2P.Rlp.FailedReads
import DevP2P.Rlp.LargeString
import DevP2P.Rlp.LargeStringDecoder
import DevP2P.Rlp.StreamedStrings
import DevP2P.Rlp.ChunkedDecoder
import DevP2P.Rlp.ChunkedEncoder
import DevP2P.Rlp.ChunkedCalls
import DevP2P.Discv4.Packets
import DevP2P.Discv4.Client
import DevP2P.Discv4.Authentic
import DevP2P.Discv4.NeighbourNodes
import DevP2P.Discv4.DialScheduler
import DevP2P.Discv4.DialSlots
import DevP2P.Discv4.QueuedPeers
import DevP2P.Discv4.DialCooldown
import DevP2P.Discv4.RepeatedDials
import DevP2P.Discv4.Requests
import DevP2P.Discv4.RequestSteps
import DevP2P.Discv4.Bonding
import DevP2P.Discv4.StolenReplies
import DevP2P.Discv4.PingReplies
import DevP2P.Discv4.Exploration
import DevP2P.Discv4.SentPackets
import DevP2P.Discv4.PingExchange
import DevP2P.Discv5.Enr
import DevP2P.Discv5.EnrEntries
import DevP2P.Discv5.EnrDecode
import DevP2P.Discv5.EnrSignature
import DevP2P.Discv5.EnrCoverage
import DevP2P.Discv5.EnrBounds
import DevP2P.Discv5.ForkReaders
import DevP2P.Discv5.EnrOrder
import DevP2P.Discv5.EnrUri
import DevP2P.Discv5.Base64Url
import DevP2P.Discv5.EnodeUri
import DevP2P.Discv5.SessionCrypto
import DevP2P.Discv5.LocalEnr
import DevP2P.Discv5.Packet
import DevP2P.Discv5.Messages
import DevP2P.Discv5.Crawler
import DevP2P.Discv5.CrawlerCalls
import DevP2P.Discv5.HandedOut
import DevP2P.Discv5.CrawlerThreads
import DevP2P.Discv5.Client
import DevP2P.Discv5.ClientSteps
import DevP2P.Discv5.ClientRuns
import DevP2P.Discv5.SessionTable
import DevP2P.Discv5.SessionLifetime
import DevP2P.Discv5.SolicitedNodes
import DevP2P.Discv5.MeasuredNodes
import DevP2P.Discv5.SessionExchange
import DevP2P.Discv5.SessionAgreement
import DevP2P.Discv5.OwnRecord
import DevP2P.Rlpx.Crypto
import DevP2P.Rlpx.Ecies
import DevP2P.Rlpx.FrameSecrets
import DevP2P.Rlpx.FrameCipher
import DevP2P.Rlpx.FrameTransport
import DevP2P.Rlpx.Transport
import DevP2P.Rlpx.MessageStream
import DevP2P.Rlpx.MessageReceive
import DevP2P.Rlpx.Hello
import DevP2P.Rlpx.Handshake
import DevP2P.Rlpx.HandshakeSecrets
import DevP2P.Rlpx.HandshakeAgreement
import DevP2P.Rlpx.SessionState
import DevP2P.Rlpx.ControlMessages
import DevP2P.Rlpx.Connection
import DevP2P.Rlpx.FramedStream
import DevP2P.Rlpx.SessionSteps
import DevP2P.Rlpx.Delivery
import DevP2P.Rlpx.CalmRuns
import DevP2P.Eth.Objects
import DevP2P.Eth.ObjectFields
import DevP2P.Eth.ObjectCodec
import DevP2P.Eth.ObjectExact
import DevP2P.Eth.ObjectBounds
import DevP2P.Eth.Messages
import DevP2P.Eth.MessageCodec
import DevP2P.Eth.StatusCodec
import DevP2P.Eth.MessageRoundTrip
import DevP2P.Eth.BareMessages
import DevP2P.Eth.HeaderRequests
import DevP2P.Eth.PooledTransactions
import DevP2P.Eth.OuterList
import DevP2P.Eth.Abi
import DevP2P.Eth.AbiBounds
import DevP2P.Eth.AbiRoundTrip
import DevP2P.Eth.ChainTracker
import DevP2P.Eth.EventFilter
import DevP2P.Eth.WatchService
import DevP2P.Eth.ReceiptRequests
import DevP2P.Eth.Announcements
import DevP2P.Eth.Subscriptions
import DevP2P.Eth.EventDelivery
