import NfsClient.Listing.Complete

/-!
# What the listings do on any pages

The loops look at the `eof` flag of a page and at nothing else. So a run is determined by the pages
received: the next request names the cookie behind the page, which is the old one if the page is
empty, with the verifier of the page, and only a last page ends the loop (`listings_run`). A page that
does not move on is answered with the request that has just been answered (`empty_page_repeats`); as
long as every page ends in a new cookie, no request comes twice.
-/

namespace NfsClient

open Xdr Interaction Paging

/-- **The listings follow the pages**, whatever they are. -/
theorem listings_run :
    (∀ (dir : Fh3) (count : UInt32) (rpc : TcpRpcClient),
      (Nfs3.readdirPager dir count).RunsOn (0, Octets.zero 8) rpc
        fun fuel => Nfs3.readdir fuel dir count rpc) ∧
    (∀ (dir : Fh3) (dircount maxcount : UInt32) (rpc : TcpRpcClient),
      (Nfs3.readdirplusPager dir dircount maxcount).RunsOn (0, Octets.zero 8) rpc
        fun fuel => Nfs3.readdirplus fuel dir dircount maxcount rpc) ∧
    (∀ (dir : Nfs4Fh) (c : Nfs4Client), (Nfs4Client.readdirPager dir).RunsOn (0, Octets.zero 8) c
      fun fuel => Nfs4Client.readdir fuel dir c) ∧
    ∀ (dir : Nfs4Fh) (c : Nfs41Client), (Nfs41Client.readdirPager dir).RunsOn (0, Octets.zero 8) c
      fun fuel => Nfs41Client.readdir fuel dir c := by
  -- each listing is a loop over its own pager
  refine ⟨fun dir count rpc => ?_, fun dir dircount maxcount rpc => ?_, fun dir c => ?_,
    fun dir c => ?_⟩
  · have h := Pager.loop_runsOn (P := Nfs3.readdirPager dir count) (0, Octets.zero 8) rpc
    simp only [← Nfs3.readdirLoop_eq] at h
    exact h
  · have h := Pager.loop_runsOn (P := Nfs3.readdirplusPager dir dircount maxcount)
      (0, Octets.zero 8) rpc
    simp only [← Nfs3.readdirplusLoop_eq] at h
    exact h
  · have h := Pager.loop_runsOn (P := Nfs4Client.readdirPager dir) (0, Octets.zero 8) c
    simp only [← Nfs4Client.readdirLoop_eq] at h
    exact h
  · have h := Pager.loop_runsOn (P := Nfs41Client.readdirPager dir) (0, Octets.zero 8) c
    simp only [← Nfs41Client.readdirLoop_eq] at h
    exact h

/-! ### A page that does not move on -/

open Nfs3

/-- An accepted REPLY with an empty page that is not the last. -/
def emptyPage : Received :=
  .ok (acceptedHeader 1 AUTH_NONE [] ++ Proc.READDIR.okBytes (none, Octets.zero 8, [], false))

theorem carries_emptyPage : CarriesReaddir emptyPage ⟨[], Octets.zero 8, false⟩ :=
  ⟨none, 1, AUTH_NONE, [], by decide,
    ⟨fits_postOpAttr none, trivial, fun e he => absurd he List.not_mem_nil, trivial⟩, rfl⟩

/-- Behind an empty page `readdir` sends the request that the page was the answer to. -/
theorem empty_page_repeats :
    ¬ ∀ (dir : Fh3) (count : UInt32) (rpc : TcpRpcClient) (fuel : ℕ) (s : List Received)
        (tr : List (RpcRequest × Received)) (pages : List (Page (Octets 8) DirEntry3))
        (p : Prog RpcRequest Received (Except Exn (List DirEntry3) × TcpRpcClient)),
      Trace anyAnswer (readdir fuel dir count rpc) [] tr p s →
      List.Forall₂ (fun exchange page => CarriesReaddir exchange.2 page) tr pages →
      (tr.map fun exchange => exchange.1.args).Nodup := by
  intro hclaim
  have hdir : ([1, 2] : Bytes).length < 2 ^ 32 := by decide
  have hpage := (@readdirPager_speaks ⟨[1, 2]⟩ hdir 4096).page_ok _ _ carries_emptyPage
  let rpc := TcpRpcClient.connect 2049
  let P := readdirPager ⟨[1, 2]⟩ 4096
  -- two exchanges: the place is still the first one after each
  have hrun : Trace anyAnswer (P.loop 2 0 (Octets.zero 8) [] rpc) []
      [(P.request rpc 0 (Octets.zero 8), emptyPage), (P.request rpc.bump 0 (Octets.zero 8), emptyPage)]
      (P.loop 0 0 (Octets.zero 8) [] rpc.bump.bump) [emptyPage, emptyPage] :=
    Pager.trace_more hpage rfl rfl (Pager.trace_more hpage rfl rfl (Trace.refl _ _))
  rw [← readdirLoop_eq] at hrun
  have hnodup := hclaim _ _ _ 2 _ _ _ _ hrun
    (.cons carries_emptyPage (.cons carries_emptyPage .nil))
  exact (List.nodup_cons.mp hnodup).1 List.mem_cons_self

end NfsClient
