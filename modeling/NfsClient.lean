import NfsClient.Lib.Interaction
import NfsClient.Lib.Paging
import NfsClient.Xdr.RoundTrip
import NfsClient.Rpc.ReplyMatching
import NfsClient.Rpc.Records
import NfsClient.Nfs4.WellFormed
import NfsClient.Nfs4.Slot
import NfsClient.Nfs4.Attrlist
import NfsClient.Nfs4.Settable
import NfsClient.Listing.Lists
import NfsClient.Listing.Progress
import NfsClient.Listing.Attributes
import NfsClient.Nfs4.Accepted
import NfsClient.Nfs4.CloseSeqid
import NfsClient.Xdr.Cursor
import NfsClient.Nfs3.Failures
import NfsClient.Nfs4.Truncation
import NfsClient.Nfs4.Facades
import NfsClient.Nfs4.Delegation
import NfsClient.Nfs4.Exits
import NfsClient.Nfs4.Handles
import NfsClient.Framing.SessionLimit
import NfsClient.Framing.RpcMessages
import NfsClient.Nfs4.AttrCodec
import NfsClient.Nfs4.Grace
import NfsClient.Nfs3.CreateModes
import NfsClient.Bench.Reservoir
import NfsClient.Bench.RandomIo
import NfsClient.Bench.Fill
import NfsClient.Bench.Cleanup
import NfsClient.Bench.SizeArgs
import NfsClient.Nfs4.Bitmap
import NfsClient.Nfs4.Instances
import NfsClient.Lib.Objects
import NfsClient.Lib.Effects
import NfsClient.Lib.RemotePaging
import NfsClient.Rpc.Service
import NfsClient.Nfs3.Transparency
import NfsClient.Lib.Atomicity
import NfsClient.Lib.SharedObject
import NfsClient.Rpc.SystemCalls
import NfsClient.Rpc.Concurrent
import NfsClient.Nfs3.Concurrent
import NfsClient.Lib.Interference
import NfsClient.Bench.Threads
import NfsClient.Bench.SharedDir
import NfsClient.Bench.Independence
import NfsClient.Bench.Phases
import NfsClient.Lib.Laps
import NfsClient.Bench.Answers
import NfsClient.Bench.Sequential
import NfsClient.Lib.Removal
import NfsClient.Compliance.Cleanup
import NfsClient.Nfs4.Machine
import NfsClient.Nfs4.Carried
import NfsClient.Nfs4.OnTheWire
import NfsClient.Nfs4.Transparency
