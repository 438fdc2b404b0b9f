import NfsClient.Bench.Workloads

/-!
# Random blocks and the end of the file

The workloads at random offsets are to stay within `[0, cfg.size)`. A block is drawn from those that
fit into the file, and if there is none, block 0 is taken. So all is well if one block fits: the last
block ends at or before `size`, and no offset wraps around (`toNat_offset`). If none fits, that is for
`size < bs`, which `main` accepts, every operation goes beyond the end (`random_io_inside_iff`), and the
writes extend the file that was to keep its size.

Requests are looked at as a server reads them. The handle in a READ or WRITE is from a reply, and fits
into a request for that reason (`Call.result_fits`).
-/

namespace NfsClient

open Xdr Reader Interaction Nfs3

namespace Nfs3

/-- A call can come to anything that a reply can say. -/
theorem Call.exists_result (c : Call) {r : c.proc.Ok} (h : c.proc.okFormat.Fits r) :
    ∃ received, c.result received = c.outcome r := by
  obtain ⟨received, hr⟩ := exists_carries h
  exact ⟨received, Call.result_of_carries hr⟩

/-- What a call returns is what its decoder reads from some reply. -/
theorem Call.result_ok {c : Call} {received : Received} {a : c.Result}
    (h : c.result received = .ok a) : ∃ reply rest, c.decodeReply reply = .ok (a, rest) := by
  unfold Call.result at h
  cases hreply : received.bind parseReply with
  | error e =>
    rw [hreply] at h
    cases h
  | ok reply =>
    rw [hreply] at h
    obtain ⟨rest, hread⟩ := value_ok.mp h
    exact ⟨reply, rest, hread⟩

theorem decodeFh3_fits {bs rest : Bytes} {fh : Fh3} (h : decodeFh3 bs = .ok (fh, rest)) :
    fh.data.length < 2 ^ 32 := by
  obtain ⟨data, hdata, rfl⟩ := map_ok.mp h
  obtain ⟨pad, hlen, -⟩ := getOpaque_ok.mp hdata
  exact hlen

theorem Call.lookup_fits {dir : Fh3} {name : Bytes} {received : Received} {fh : Fh3}
    (h : (Call.lookup dir name).result received = .ok fh) : fh.data.length < 2 ^ 32 := by
  obtain ⟨reply, rest, hread⟩ := Call.result_ok h
  obtain ⟨status, bs₁, -, hread⟩ := bind_ok.mp hread
  obtain ⟨-, bs₂, -, hread⟩ := bind_ok.mp hread
  obtain ⟨fh', bs₃, hfh, hread⟩ := bind_ok.mp hread
  obtain ⟨-, bs₄, -, hread⟩ := bind_ok.mp hread
  obtain ⟨-, bs₅, -, hread⟩ := bind_ok.mp hread
  obtain ⟨rfl, -⟩ := pure_ok.mp hread
  exact decodeFh3_fits hfh

theorem Call.create_fits {dir : Fh3} {name : Bytes} {mode : CreateMode3} {hmode : mode ≠ .EXCLUSIVE}
    {attrs : Sattr3} {received : Received} {fh : Fh3}
    (h : (Call.create dir name mode hmode attrs).result received = .ok fh) :
    fh.data.length < 2 ^ 32 := by
  obtain ⟨reply, rest, hread⟩ := Call.result_ok h
  obtain ⟨status, bs₁, -, hread⟩ := bind_ok.mp hread
  obtain ⟨-, bs₂, -, hread⟩ := bind_ok.mp hread
  obtain ⟨fh_present, bs₃, -, hread⟩ := bind_ok.mp hread
  obtain ⟨-, bs₄, -, hread⟩ := bind_ok.mp hread
  obtain ⟨fh', bs₅, hfh, hread⟩ := bind_ok.mp hread
  obtain ⟨-, bs₆, -, hread⟩ := bind_ok.mp hread
  obtain ⟨-, bs₇, -, hread⟩ := bind_ok.mp hread
  obtain ⟨rfl, -⟩ := pure_ok.mp hread
  exact decodeFh3_fits hfh

end Nfs3

namespace Bench

variable {cfg : BenchConfig} {t : Turn} {turns : List Turn}

/-! ### Offsets -/

theorem toNat_maxBlock (cfg : BenchConfig) :
    cfg.maxBlock.toNat = cfg.size.toNat / cfg.bs.toNat - 1 := by
  have hblocks : (cfg.size / cfg.bs.toUInt64).toNat = cfg.size.toNat / cfg.bs.toNat := by
    rw [UInt64.toNat_div, UInt32.toNat_toUInt64]
  rw [← hblocks]
  -- with no whole block in the file the subtraction would wrap, and 0 is taken instead
  change (if cfg.size / cfg.bs.toUInt64 > 0 then cfg.size / cfg.bs.toUInt64 - 1 else 0).toNat = _
  split
  · next h =>
    have hle : (1 : UInt64) ≤ cfg.size / cfg.bs.toUInt64 := by
      rw [gt_iff_lt, UInt64.lt_iff_toNat_lt] at h
      exact UInt64.le_iff_toNat_le.mpr h
    exact UInt64.toNat_sub_of_le _ _ hle
  · next h =>
    have hzero : (cfg.size / cfg.bs.toUInt64).toNat = 0 := by
      rw [gt_iff_lt, UInt64.lt_iff_toNat_lt] at h
      exact Nat.eq_zero_of_not_pos h
    rw [hzero]
    rfl

/-- A block that may be drawn begins within the size. -/
theorem block_mul_le (ht : t.block ≤ cfg.maxBlock) :
    t.block.toNat * cfg.bs.toNat ≤ cfg.size.toNat := by
  have hblock : t.block.toNat ≤ cfg.size.toNat / cfg.bs.toNat := by
    rw [UInt64.le_iff_toNat_le, toNat_maxBlock] at ht
    exact ht.trans (Nat.sub_le _ 1)
  calc t.block.toNat * cfg.bs.toNat
      ≤ cfg.size.toNat / cfg.bs.toNat * cfg.bs.toNat := Nat.mul_le_mul_right _ hblock
    _ ≤ cfg.size.toNat := Nat.div_mul_le_self _ _

/-- The product does not wrap around. -/
theorem toNat_offset (ht : t.block ≤ cfg.maxBlock) :
    (cfg.offset t).toNat = t.block.toNat * cfg.bs.toNat := by
  have hlt := Nat.lt_of_le_of_lt (block_mul_le ht) cfg.size.toNat_lt
  unfold BenchConfig.offset
  rw [UInt64.toNat_mul, UInt32.toNat_toUInt64, Nat.mod_eq_of_lt hlt]

/-- If one block fits, then the block that is drawn does. -/
theorem offset_add_le (hbs : 0 < cfg.bs) (hfits : cfg.bs.toNat ≤ cfg.size.toNat)
    (ht : t.block ≤ cfg.maxBlock) : (cfg.offset t).toNat + cfg.bs.toNat ≤ cfg.size.toNat := by
  have hpos : 0 < cfg.bs.toNat := UInt32.lt_iff_toNat_lt.mp hbs
  have hblocks : 0 < cfg.size.toNat / cfg.bs.toNat := Nat.div_pos hfits hpos
  have hblock : t.block.toNat + 1 ≤ cfg.size.toNat / cfg.bs.toNat := by
    rw [UInt64.le_iff_toNat_le, toNat_maxBlock] at ht
    omega
  calc (cfg.offset t).toNat + cfg.bs.toNat
      = (t.block.toNat + 1) * cfg.bs.toNat := by rw [toNat_offset ht, Nat.succ_mul]
    _ ≤ cfg.size.toNat / cfg.bs.toNat * cfg.bs.toNat := Nat.mul_le_mul_right _ hblock
    _ ≤ cfg.size.toNat := Nat.div_mul_le_self _ _

/-! ### Requests -/

/-- A READ or a WRITE, if the request is one, covers one block, within the size. -/
structure Inside (cfg : BenchConfig) (q : RpcRequest) : Prop where
  read : ∀ fh offset count, Asks .READ q (fh, offset, count) →
    count = cfg.bs ∧ offset.toNat + cfg.bs.toNat ≤ cfg.size.toNat
  write : ∀ fh offset count stable data, Asks .WRITE q (fh, offset, count, stable, data) →
    count = cfg.bs ∧ data.length = cfg.bs.toNat ∧ offset.toNat + cfg.bs.toNat ≤ cfg.size.toNat

theorem inside_of_proc {c : Call} (hread : c.proc ≠ .READ) (hwrite : c.proc ≠ .WRITE)
    (rpc : TcpRpcClient) : Inside cfg (c.request rpc) :=
  ⟨fun _ _ _ h => absurd h (Call.not_asks hread rpc _),
    fun _ _ _ _ _ h => absurd h (Call.not_asks hwrite rpc _)⟩

theorem inside_read_iff {fh : Fh3} (hfh : fh.data.length < 2 ^ 32) (rpc : TcpRpcClient) :
    Inside cfg ((Call.read fh (cfg.offset t) cfg.bs).request rpc) ↔
      (cfg.offset t).toNat + cfg.bs.toNat ≤ cfg.size.toNat := by
  have hasks := Call.asks (c := .read fh (cfg.offset t) cfg.bs) hfh rpc
  constructor
  · exact fun h => (h.read _ _ _ hasks).2
  · refine fun h => ⟨fun fh' offset count h' => ?_, fun _ _ _ _ _ h' => ?_⟩
    · cases hasks.unique h'
      exact ⟨rfl, h⟩
    · exact absurd h' (Call.not_asks Proc.noConfusion rpc _)

theorem inside_write_iff {fh : Fh3} (hfh : fh.data.length < 2 ^ 32) {buf : Bytes}
    (hbuf : buf.length = cfg.bs.toNat) (rpc : TcpRpcClient) :
    Inside cfg ((Call.write fh (cfg.offset t) cfg.stable buf).request rpc) ↔
      (cfg.offset t).toNat + cfg.bs.toNat ≤ cfg.size.toNat := by
  have hfits : buf.length < 2 ^ 32 := hbuf ▸ cfg.bs.toNat_lt
  have hasks := Call.asks (c := .write fh (cfg.offset t) cfg.stable buf) ⟨hfh, hfits⟩ rpc
  constructor
  · exact fun h => (h.write _ _ _ _ _ hasks).2.2
  · refine fun h => ⟨fun _ _ _ h' => ?_, fun fh' offset count stable data h' => ?_⟩
    · exact absurd h' (Call.not_asks Proc.noConfusion rpc _)
    · cases hasks.unique h'
      refine ⟨?_, hbuf, h⟩
      rw [hbuf, UInt32.ofNat_toNat]

/-! ### Runs -/

/-- Whatever the answers are, all requests are inside. -/
def SendsInside {σ α : Type} (cfg : BenchConfig) (m : ClientM σ α) (c : σ) (h : List Received) :
    Prop :=
  wpM anyAnswer (fun _ q => Inside cfg q) (fun _ _ _ => True) m c h

/-- A call that can succeed: what counts is what follows it. -/
theorem sendsInside_bind_iff {β : Type} {P : Prop} {c : Call} {f : c.Result → ClientM Worker β}
    {w : Worker} {h : List Received} (hread : c.proc ≠ .READ) (hwrite : c.proc ≠ .WRITE)
    (hok : ∃ received a, c.result received = .ok a)
    (hf : ∀ received a, c.result received = .ok a → ∀ w h, SendsInside cfg (f a) w h ↔ P) :
    SendsInside cfg (onClient (call c) >>= f) w h ↔ P := by
  refine wpM_bind.trans (wpM_onMember.trans (wpM_client_call.trans ⟨fun hall => ?_, fun hP => ?_⟩))
  · obtain ⟨received, a, ha⟩ := hok
    have hnext := hall.2 received _ rfl
    rw [ha] at hnext
    exact (hf received a ha _ _).mp hnext
  · refine ⟨inside_of_proc hread hwrite _, fun received h' _ => ?_⟩
    cases ha : c.result received with
    | error e => exact trivial
    | ok a => exact (hf received a ha _ _).mpr hP

/-- The loop of a worker, by its operation. A loop that does anything has a first turn. -/
theorem wpM_loop_iff {P : Prop} {io : Turn → ClientM NFSClient UInt64}
    {post : Except Exn Unit → Worker → List Received → Prop} (hpost : ∀ r w h, post r w h)
    (hio : ∀ t ∈ turns, ∀ nfs h, SendsInside cfg (io t) nfs h ↔ P) (w : Worker)
    (h : List Received) :
    wpM anyAnswer (fun _ q => Inside cfg q) post (loop io turns) w h ↔ turns = [] ∨ P := by
  constructor
  · intro hall
    cases turns with
    | nil => exact Or.inl rfl
    | cons t turns =>
      have hfirst := wpM_onMember.mp (wpM_bind.mp hall)
      exact Or.inr ((hio t List.mem_cons_self _ _).mp (wpM_mono (fun _ _ _ _ => trivial) hfirst))
  · intro hP
    -- no turn changes what the next one may send
    induction turns generalizing w h with
    | nil => exact hpost _ _ _
    | cons t turns ih =>
      have hP := hP.resolve_left (List.cons_ne_nil t turns)
      have hfirst := (hio t List.mem_cons_self w.client h).mpr hP
      refine wpM_bind.mpr (wpM_onMember.mpr (wpM_mono (fun r nfs h' _ => ?_) hfirst))
      cases r with
      | error e => exact hpost _ _ _
      | ok n =>
        have hturns := fun t' ht' => hio t' (List.mem_cons_of_mem t ht')
        exact wpM_assign_bind.mpr (ih hturns _ _ (Or.inr hP))

section

variable {fh : Fh3} {buf : Bytes} {nfs : NFSClient} {h : List Received}

theorem offset_add_le_iff (hbs : 0 < cfg.bs) (ht : t.block ≤ cfg.maxBlock) :
    (cfg.offset t).toNat + cfg.bs.toNat ≤ cfg.size.toNat ↔ cfg.bs.toNat ≤ cfg.size.toNat :=
  ⟨fun h => (Nat.le_add_left _ _).trans h, fun h => offset_add_le hbs h ht⟩

theorem sendsInside_readBlock_iff (hbs : 0 < cfg.bs) (ht : t.block ≤ cfg.maxBlock)
    (hfh : fh.data.length < 2 ^ 32) :
    SendsInside cfg (readBlock cfg fh t) nfs h ↔ cfg.bs.toNat ≤ cfg.size.toNat := by
  rw [← offset_add_le_iff hbs ht, ← inside_read_iff hfh nfs.nfs_conn_]
  refine wpM_bind.trans (wpM_client_call.trans (and_iff_left fun r h' _ => ?_))
  cases (Call.read fh (cfg.offset t) cfg.bs).result r <;> exact trivial

theorem sendsInside_writeBlock_iff (hbs : 0 < cfg.bs) (ht : t.block ≤ cfg.maxBlock)
    (hfh : fh.data.length < 2 ^ 32) (hbuf : buf.length = cfg.bs.toNat) :
    SendsInside cfg (writeBlock cfg fh buf t) nfs h ↔ cfg.bs.toNat ≤ cfg.size.toNat := by
  rw [← offset_add_le_iff hbs ht, ← inside_write_iff hfh hbuf nfs.nfs_conn_]
  refine wpM_bind.trans (wpM_client_call.trans (and_iff_left fun r h' _ => ?_))
  cases (Call.write fh (cfg.offset t) cfg.stable buf).result r <;> exact trivial

end

/-- LOOKUP of a file that is there. -/
theorem exists_lookup (dir : Fh3) (name : Bytes) :
    ∃ received fh, (Call.lookup dir name).result received = .ok fh := by
  obtain ⟨received, h⟩ := (Call.lookup dir name).exists_result (r := ([], none, none))
    ⟨Nat.two_pow_pos 32, fits_postOpAttr none, fits_postOpAttr none⟩
  exact ⟨received, ⟨[]⟩, h⟩

/-- CREATE that hands out a handle. -/
theorem exists_create (dir : Fh3) (name : Bytes) (attrs : Sattr3) :
    ∃ received fh, (Call.create dir name .UNCHECKED CreateMode3.noConfusion attrs).result received
      = .ok fh := by
  have hfh : Wire.postOpFh3.Fits (some []) := by
    rintro fh ⟨⟩
    exact Nat.two_pow_pos 32
  obtain ⟨received, h⟩ := (Call.create dir name .UNCHECKED CreateMode3.noConfusion attrs).exists_result
    (r := (some [], none, none, none)) ⟨hfh, fits_postOpAttr none, fits_wccData (none, none)⟩
  exact ⟨received, ⟨[]⟩, h⟩

theorem exists_setattr (fh : Fh3) (attrs : Sattr3) (guard : SattrGuard3) :
    ∃ received a, (Call.setattr fh attrs guard).result received = .ok a := by
  obtain ⟨received, h⟩ := (Call.setattr fh attrs guard).exists_result (r := (none, none))
    (fits_wccData (none, none))
  exact ⟨received, (), h⟩

/-- The file of the thread is removed behind the loop. -/
theorem sendsInside_remove {dir : Fh3} {name : Bytes} {w : Worker} {h : List Received} :
    SendsInside cfg (onClient (call (.remove dir name))) w h :=
  wpM_onMember.mpr ((wpM_client_call (c := .remove dir name)).mpr
    ⟨inside_of_proc Proc.noConfusion Proc.noConfusion _, fun _ _ _ => trivial⟩)

theorem run_inside_iff (workload : RandomWorkload) (hbs : 0 < cfg.bs) {workdir : Fh3} {tid : ℕ}
    (hturns : ∀ t ∈ turns, t.block ≤ cfg.maxBlock) {w : Worker}
    {h : List Received} :
    SendsInside cfg (workload.run workdir cfg tid turns) w h ↔
      turns = [] ∨ cfg.bs.toNat ≤ cfg.size.toNat := by
  have hbuf : ∀ byte : UInt8, (List.replicate cfg.bs.toNat byte).length = cfg.bs.toNat :=
    fun byte => List.length_replicate
  cases workload with
  | randread =>
    refine sendsInside_bind_iff Proc.noConfusion Proc.noConfusion (exists_lookup _ _) ?_
    intro received fh hfh
    refine wpM_loop_iff (fun _ _ _ => trivial) fun t ht nfs h => ?_
    exact sendsInside_readBlock_iff hbs (hturns t ht) (Call.lookup_fits hfh)
  | randwrite =>
    -- CREATE and SETATTR come first, a REMOVE last: none of them reads or writes
    refine sendsInside_bind_iff (c := .create workdir _ .UNCHECKED CreateMode3.noConfusion _)
      Proc.noConfusion Proc.noConfusion (exists_create _ _ _) ?_
    intro received fh hfh w h
    refine sendsInside_bind_iff Proc.noConfusion Proc.noConfusion (exists_setattr _ _ _) ?_
    intro _ _ _ w h
    refine wpM_bind.trans (wpM_loop_iff (fun r w h => ?_) (fun t ht nfs h => ?_) w h)
    · cases r with
      | error e => exact trivial
      | ok a => exact sendsInside_remove
    · exact sendsInside_writeBlock_iff hbs (hturns t ht) (Call.create_fits hfh) (hbuf 0xDE)
  | mixed =>
    refine sendsInside_bind_iff Proc.noConfusion Proc.noConfusion (exists_lookup _ _) ?_
    intro received fh hfh
    refine wpM_loop_iff (fun _ _ _ => trivial) fun t ht nfs h => ?_
    split
    · exact sendsInside_readBlock_iff hbs (hturns t ht) (Call.lookup_fits hfh)
    · exact sendsInside_writeBlock_iff hbs (hturns t ht) (Call.lookup_fits hfh) (hbuf 0xEF)

/-- **Random I/O stays inside the file** exactly if a block fits into it, or there is no I/O at all: in
every run of each of the three workloads. The offsets do not wrap around in any case. -/
theorem random_io_inside_iff (workload : RandomWorkload) (cfg : BenchConfig) (hcfg : cfg.Accepted)
    (workdir : Fh3) (tid : ℕ) (turns : List Turn) (hturns : ∀ t ∈ turns, t.block ≤ cfg.maxBlock)
    (w : Worker) :
    (∀ t ∈ turns, (cfg.offset t).toNat = t.block.toNat * cfg.bs.toNat) ∧
      ((workload.run workdir cfg tid turns w).Sends (fun _ q => Inside cfg q) [] ↔
        turns = [] ∨ cfg.bs.toNat ≤ cfg.size.toNat) :=
  ⟨fun t ht => toNat_offset (hturns t ht),
    ClientM.sends_iff.trans (run_inside_iff workload hcfg.bs_pos hturns)⟩

/-! ### A file of one byte -/

/-- The default block size, and a file smaller than it. -/
def oneByte : BenchConfig := { size := 1 }

theorem oneByte_accepted : oneByte.Accepted := ⟨by decide, by decide⟩

/-- The only block that may be drawn. -/
def firstBlock : Turn := ⟨0, true, 1000⟩

theorem firstBlock_drawn : ∀ t ∈ [firstBlock], t.block ≤ oneByte.maxBlock := by
  intro t ht
  rw [List.mem_singleton.mp ht]
  decide

theorem oneByte_inside_iff :
    (∀ t ∈ [firstBlock], (oneByte.offset t).toNat = t.block.toNat * oneByte.bs.toNat) ∧
      ((RandomWorkload.randread.run ⟨[1]⟩ oneByte 0 [firstBlock] ⟨⟨.connect 2049⟩, {}, 0, 0⟩).Sends
        (fun _ q => Inside oneByte q) [] ↔
          [firstBlock] = [] ∨ oneByte.bs.toNat ≤ oneByte.size.toNat) :=
  random_io_inside_iff .randread oneByte oneByte_accepted ⟨[1]⟩ 0 [firstBlock] firstBlock_drawn _

/-- A read of 65536 bytes in the file of one byte. -/
theorem oneByte_read_outside :
    ¬ ∀ (workload : RandomWorkload) (cfg : BenchConfig), cfg.Accepted →
      ∀ (workdir : Fh3) (tid : ℕ) (turns : List Turn), (∀ t ∈ turns, t.block ≤ cfg.maxBlock) →
        ∀ w : Worker, (workload.run workdir cfg tid turns w).Sends (fun _ q => Inside cfg q) [] := by
  intro hclaim
  have h := hclaim .randread oneByte oneByte_accepted ⟨[1]⟩ 0 [firstBlock] firstBlock_drawn
    ⟨⟨.connect 2049⟩, {}, 0, 0⟩
  have hle := (run_inside_iff .randread oneByte_accepted.bs_pos firstBlock_drawn).mp
    (ClientM.sends_iff.mp h)
  exact absurd hle (by decide)

end Bench

end NfsClient
