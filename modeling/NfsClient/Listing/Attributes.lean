import NfsClient.Listing.Complete
import NfsClient.Nfs4.Bitmap

/-!
# Attributes from the server are reported exactly

`decode_fattr4` knows fourteen attributes. A server that returns any of them, in a bitmap with any
number of words and their values in ascending order, is understood exactly
(`ServerAttrs.decode_exactly`); and what `getattr` and `readdir` ask for is among the fourteen
(`requested_supported`), so that whatever part of it a server returns for a file
(`FileAttrs.select`) is what they report.
-/

namespace NfsClient

open Xdr Reader Interaction Paging
open Nfs3 (whenSet)

/-! ### A part of the attributes of a file -/

/-- What a file has, of the attributes that the client knows. -/
structure FileAttrs where
  type : Ftype4
  change : UInt64
  size : UInt64
  fsid : UInt64 × UInt64
  fileid : UInt64
  mode : UInt32
  numlinks : UInt32
  owner : Bytes
  owner_group : Bytes
  space_used : UInt64
  time_access : Nfstime4
  time_metadata : Nfstime4
  time_modify : Nfstime4
  mounted_on_fileid : UInt64

/-- The attributes of the file that are in the bitmap. -/
def FileAttrs.select (f : FileAttrs) (bm : List UInt32) : ServerAttrs where
  type := whenSet (bitmap4Test bm 1) f.type
  change := whenSet (bitmap4Test bm 3) f.change
  size := whenSet (bitmap4Test bm 4) f.size
  fsid := whenSet (bitmap4Test bm 8) f.fsid
  fileid := whenSet (bitmap4Test bm 20) f.fileid
  mode := whenSet (bitmap4Test bm 33) f.mode
  numlinks := whenSet (bitmap4Test bm 35) f.numlinks
  owner := whenSet (bitmap4Test bm 36) f.owner
  owner_group := whenSet (bitmap4Test bm 37) f.owner_group
  space_used := whenSet (bitmap4Test bm 45) f.space_used
  time_access := whenSet (bitmap4Test bm 47) f.time_access
  time_metadata := whenSet (bitmap4Test bm 52) f.time_metadata
  time_modify := whenSet (bitmap4Test bm 53) f.time_modify
  mounted_on_fileid := whenSet (bitmap4Test bm 55) f.mounted_on_fileid

theorem FileAttrs.describes_select (f : FileAttrs) {bm : List UInt32}
    (h : ∀ id, bitmap4Test bm id = true → id ∈ supportedIds) : (f.select bm).Describes bm := by
  have hset : ∀ {α : Type} (b : Bool) (a : α), (whenSet b a).isSome = b := by
    intro α b a
    cases b <;> rfl
  intro id
  by_cases hid : id ∈ supportedIds
  · simp only [supportedIds, List.mem_cons, List.not_mem_nil, or_false] at hid
    unfold ServerAttrs.has FileAttrs.select
    simp only [hset]
    rcases hid with rfl | rfl | rfl | rfl | rfl | rfl | rfl | rfl | rfl | rfl | rfl | rfl | rfl | rfl
      <;> rfl
  -- a number that is not supported is neither in the bitmap nor among the values
  · cases hhas : (f.select bm).has id with
    | true => exact absurd (ServerAttrs.mem_supportedIds_of_has hhas) hid
    | false =>
      cases hbit : bitmap4Test bm id with
      | true => exact absurd (h id hbit) hid
      | false => rfl

/-! ### What the client asks for -/

/-- Every attribute that `getattr` and `readdir` ask for is one that `decode_fattr4` knows. -/
theorem requested_supported {id : UInt32}
    (h : bitmap4Test (makeBitmap4 getattrIds) id = true ∨
      bitmap4Test (makeBitmap4 readdirIds) id = true) : id ∈ supportedIds := by
  have hsub : ∀ ids : List UInt32, ids ⊆ supportedIds →
      bitmap4Test (makeBitmap4 ids) id = true → id ∈ supportedIds := by
    intro ids hids hbit
    rw [bitmap4Test_make] at hbit
    exact hids (of_decide_eq_true hbit)
  rcases h with h | h
  · exact hsub getattrIds (by decide) h
  · exact hsub readdirIds (by decide) h

/-! ### Reports -/

theorem ServerAttrs.decode_exactly (a : ServerAttrs) (n : ℕ)
    (h : Wire.fattr4.Fits (a.bitmap ++ List.replicate n 0, a.attrlist)) :
    Reads decodeFattr4 (Wire.fattr4.write (a.bitmap ++ List.replicate n 0, a.attrlist)) a.toFattr4 :=
  decodeFattr4_reads (a.describes_bitmap n) h

/-- A GETATTR result with the given attributes. -/
def CarriesAttrs (ops : List ArgOp) (received : Received) (bm : List UInt32) (a : ServerAttrs) :
    Prop :=
  ∃ reply : SuccessReply, reply.AnswersTo ops ∧ reply.InRecord received ∧
    reply.results.getLast? = some ⟨.GETATTR, (bm, a.attrlist)⟩ ∧ a.Describes bm

/-- **Attributes are reported exactly.** Any of the supported attributes are decoded to their values,
and what follows them is left; all that the client asks for is supported, so that any part of it that
a server returns is; and `getattr` and `readdir` of both facades return what was sent. -/
theorem attributes_reported_exactly :
    (∀ (a : ServerAttrs) (n : ℕ),
      Wire.fattr4.Fits (a.bitmap ++ List.replicate n 0, a.attrlist) →
      Reads decodeFattr4 (Wire.fattr4.write (a.bitmap ++ List.replicate n 0, a.attrlist))
        a.toFattr4) ∧
    (∀ (f : FileAttrs) (bm : List UInt32),
      (∀ id, bitmap4Test bm id = true → bitmap4Test (makeBitmap4 getattrIds) id = true ∨
        bitmap4Test (makeBitmap4 readdirIds) id = true) → (f.select bm).Describes bm) ∧
    (∀ (c : Nfs4Client) (fh : Nfs4Fh) (fuel : ℕ) (bm : List UInt32) (a : ServerAttrs)
      (received : Received),
      CarriesAttrs (FileMethod.getattr fh).argOps received bm a →
      ∃ c', (Nfs4Client.perform fuel (.file (.getattr fh))).exec c [received]
        = (some (.ok a.toFattr4, c'), [])) ∧
    (∀ (c : Nfs41Client) (fh : Nfs4Fh) (fuel : ℕ) (bm : List UInt32) (a : ServerAttrs)
      (received : Received),
      CarriesAttrs (Nfs41Client.sequenceOp c.sessionid_ c.slot_seqid_ ::
        (FileMethod.getattr fh).argOps) received bm a →
      ∃ c', (Nfs41Client.perform fuel (.file (.getattr fh))).exec c [received]
        = (some (.ok a.toFattr4, c'), [])) ∧
    (∀ (S : Type) (step : Step RpcRequest Received S) (dir : Nfs4Fh) (c : Nfs4Client) (fuel : ℕ)
      (s s' : S) (tr : List (RpcRequest × Received)) (pages : List (Page (Octets 8) ServerEntry))
      (p : Prog RpcRequest Received (Except Exn (List Nfs4DirEntry) × Nfs4Client)),
      dir.data.length < 2 ^ 32 → Trace step (Nfs4Client.readdir fuel dir c) s tr p s' →
      List.Forall₂ (fun exchange page =>
        CarriesReaddir4 (readdirOps dir 0 (Octets.zero 8)) exchange.2 page) tr pages →
      pages.length < fuel → (∃ page ∈ pages, page.eof = true) →
      ∃ c', p = .done (.ok (pages.flatMap fun page => page.entries.map ServerEntry.view), c')) ∧
    ∀ (S : Type) (step : Step RpcRequest Received S) (dir : Nfs4Fh) (c : Nfs41Client) (fuel : ℕ)
      (s s' : S) (tr : List (RpcRequest × Received)) (pages : List (Page (Octets 8) ServerEntry))
      (p : Prog RpcRequest Received (Except Exn (List Nfs4DirEntry) × Nfs41Client)),
      dir.data.length < 2 ^ 32 → Trace step (Nfs41Client.readdir fuel dir c) s tr p s' →
      List.Forall₂ (fun exchange page => Nfs41Client.CarriesReaddir dir exchange.2 page) tr pages →
      pages.length < fuel → (∃ page ∈ pages, page.eof = true) →
      ∃ c', p = .done (.ok (pages.flatMap fun page => page.entries.map ServerEntry.view), c') := by
  refine ⟨ServerAttrs.decode_exactly, fun f bm h => ?_, ?_, ?_, ?_, ?_⟩
  · exact f.describes_select fun id hid => requested_supported (h id hid)
  · rintro c fh fuel bm a received ⟨reply, hreply, hrecord, hlast, hbm⟩
    have hresult := CompoundCall.result_of_decode hrecord
      (Nfs4Client.fileCall_exact (.getattr fh) reply a.toFattr4 hreply ⟨bm, a, hlast, hbm, rfl⟩)
    exact ⟨c.sent, (Nfs4Client.exec_onRpc_send _ _ _ _).trans (by rw [hresult])⟩
  · rintro c fh fuel bm a received ⟨reply, hreply, hrecord, hlast, hbm⟩
    have hresult := CompoundCall.result_of_decode hrecord
      (Nfs41Client.fileCall_exact (.getattr fh) _ _ reply a.toFattr4 hreply ⟨bm, a, hlast, hbm, rfl⟩)
    exact ⟨c.sent, (Nfs41Client.exec_call _ _ _ _).trans (by rw [hresult])⟩
  · intro S step dir c fuel s s' tr pages p hd htr hpages hfuel hlast
    rw [Nfs4Client.readdir, Nfs4Client.readdirLoop_eq] at htr
    exact (Nfs4Client.readdirPager_speaks hd).run_ended (x := (0, Octets.zero 8)) htr hpages hfuel
      hlast
  · intro S step dir c fuel s s' tr pages p hd htr hpages hfuel hlast
    rw [Nfs41Client.readdir, Nfs41Client.readdirLoop_eq] at htr
    exact (Nfs41Client.readdirPager_speaks hd).run_ended (x := (0, Octets.zero 8)) htr hpages hfuel
      hlast

/-- Type, fsid and owner, in a bitmap of four words, in front of other bytes. -/
theorem type_fsid_owner_decoded :
    decodeFattr4 (Wire.fattr4.write
        (ServerAttrs.bitmap ⟨{ type := some ⟨1⟩, owner := some [97] }, some (7, 8)⟩
            ++ List.replicate 2 0,
          ServerAttrs.attrlist ⟨{ type := some ⟨1⟩, owner := some [97] }, some (7, 8)⟩) ++ [5])
      = .ok ({ type := some ⟨1⟩, owner := some [97] }, [5]) := by
  refine attributes_reported_exactly.1 ⟨{ type := some ⟨1⟩, owner := some [97] }, some (7, 8)⟩ 2
    ⟨⟨?_, fun _ _ => trivial⟩, ?_⟩ [5]
  · decide +kernel
  · change _ < _
    decide +kernel

end NfsClient
