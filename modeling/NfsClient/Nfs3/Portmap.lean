import NfsClient.Rpc.Client

/-!
# The portmapper

`nfs/portmap.cpp`: before a client connects to a program it asks the portmapper of the host for the
port, over a connection of its own that is dropped with the answer.
-/

namespace NfsClient

open Xdr Reader Interaction

def PMAP_PROG : UInt32 := 100000
def PMAP_VERS : UInt32 := 2
def PMAPPROC_GETPORT : UInt32 := 3
def PMAP_PORT : UInt16 := 111
def IPPROTO_TCP_XDR : UInt32 := 6

/-- The request of `getport`. -/
def getportRequest (prog vers : UInt32) : RpcRequest :=
  (TcpRpcClient.connect PMAP_PORT).request PMAP_PROG PMAP_VERS PMAPPROC_GETPORT
    (putUint32 prog ++ putUint32 vers ++ putUint32 IPPROTO_TCP_XDR ++ putUint32 0)

/-- The connection to the portmapper is a local of `getport`. -/
def getport (prog vers : UInt32) : ClientM Unit UInt16 := do
  let args := putUint32 prog ++ putUint32 vers ++ putUint32 IPPROTO_TCP_XDR ++ putUint32 0
  let (reply, _) ← ClientM.onLocal (TcpRpcClient.connect PMAP_PORT)
    (TcpRpcClient.call PMAP_PROG PMAP_VERS PMAPPROC_GETPORT args)
  let port ← ClientM.decode getUint32 reply
  -- the portmapper answers 0 for what it does not know
  if port = 0 then
    ClientM.throw (.runtimeError ("portmap: program " ++ toString prog ++ " version " ++
      toString vers ++ " is not registered"))
  else return port.toUInt16

variable {S : Type} {step : Step RpcRequest Received S} {ok : S → RpcRequest → Prop} {s : S}

/-- Whatever the portmapper answers, `getport` sends its one request. -/
theorem wpM_getport {post : Except Exn UInt16 → Unit → S → Prop} {prog vers : UInt32}
    (hok : ok s (getportRequest prog vers))
    (hpost : ∀ r s', step s (getportRequest prog vers) r s' → ∀ port, post port () s') :
    wpM step ok post (getport prog vers) () s := by
  unfold getport
  rw [wpM_bind]
  refine wpM_onLocal.mpr (wpM_call.mpr ⟨hok, fun r s' hstep => ?_⟩)
  cases r.bind parseReply with
  | error e => exact hpost r s' hstep _
  | ok reply =>
    refine wpM_bind.mpr (wpM_decode.mpr ?_)
    cases getUint32 reply with
    | error e => exact hpost r s' hstep _
    | ok x =>
      obtain ⟨port, rest⟩ := x
      -- an unregistered program is an exception, any other port is returned
      change wpM step ok post (if port = 0 then _ else _) () s'
      split
      · exact hpost r s' hstep _
      · exact hpost r s' hstep _

/-- A port that the portmapper answers with is the result. -/
theorem port_of_wpM_getport {post : Except Exn UInt16 → Unit → S → Prop} {prog vers : UInt32}
    {r : Received} {s' : S} {reply rest : Bytes} {port : UInt32}
    (h : wpM step ok post (getport prog vers) () s)
    (hstep : step s (getportRequest prog vers) r s') (hr : r.bind parseReply = .ok reply)
    (hreply : getUint32 reply = .ok (port, rest)) (hport : port ≠ 0) :
    post (.ok port.toUInt16) () s' := by
  unfold getport at h
  rw [wpM_bind] at h
  have hcall := (wpM_call.mp (wpM_onLocal.mp h)).2 r s' hstep
  rw [hr] at hcall
  have hdecode := wpM_decode.mp (wpM_bind.mp hcall)
  rw [hreply] at hdecode
  change wpM step ok post (if port = 0 then _ else _) () s' at hdecode
  rwa [if_neg hport] at hdecode

end NfsClient
