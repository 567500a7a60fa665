import Kessel.Ledger
import Kessel.Server.Loop

/-!
# Kessel.Net

The sockets (`ks_net.c`).

The kernel answers one system call at a time, so every function takes the
answers of its calls; a call that is interrupted is made again.  `KsHeld` is what
the kernel and the allocator know of the process: an account of everything that
`ks_server_run` takes and gives back, and which descriptors do not block.

* `ksListen_spec`, `ksAccept_spec` — a descriptor that is returned is held and
  does not block, and one that is not returned has been closed.
-/

namespace Kessel

/-! ## what the process holds -/

/-- What `ks_server_run` and its callees take and give back. -/
inductive KsResource where
  | descriptor (fd : Nat)
  /-- the two blocks of `client_init`, by the slot of the client -/
  | input (slot : Nat)
  | output (slot : Nat)
  | store
  | pubsub
  /-- the array `clients` -/
  | registry
  deriving DecidableEq, Repr

/-- What the kernel and the allocator know of the process.  `offered` is not in
the source: how many descriptors `ks_accept` has returned. -/
structure KsHeld where
  ledger : Ledger KsResource
  nonblocking : Finset Nat
  offered : Nat

def KsHeld.init : KsHeld := ⟨.empty, ∅, 0⟩

def KsHeld.take (h : KsHeld) (r : KsResource) : KsHeld := { h with ledger := h.ledger.take r }

def KsHeld.give (h : KsHeld) (r : KsResource) : KsHeld := { h with ledger := h.ledger.give r }

/-- `malloc`, which may fail. -/
def KsHeld.malloc (h : KsHeld) (r : KsResource) (ok : Bool) : KsHeld := if ok then h.take r else h

/-- `free`, which does nothing for a null pointer. -/
def KsHeld.free (h : KsHeld) (r : KsResource) (allocated : Bool) : KsHeld :=
  if allocated then h.give r else h

/-- A new descriptor, as `socket` and `accept` answer it: it blocks. -/
def KsHeld.opened (h : KsHeld) (fd : Nat) : KsHeld :=
  { h.take (.descriptor fd) with nonblocking := h.nonblocking.erase fd }

/-! ## `ks_net.c` -/

/-- `ks_close` -/
def ksClose (h : KsHeld) (fd : Nat) : KsHeld :=
  { h.give (.descriptor fd) with nonblocking := h.nonblocking.erase fd }

/-- What the two calls of `fcntl` answer. -/
structure KsFcntl where
  getfl : Bool
  setfl : Bool
  deriving DecidableEq, Repr

/-- `ks_set_nonblock` -/
def ksSetNonblock (h : KsHeld) (fd : Nat) (fcntl : KsFcntl) : KsHeld × Bool :=
  if fcntl.getfl = false then (h, false)
  else if fcntl.setfl = false then (h, false)
  else ({ h with nonblocking := insert fd h.nonblocking }, true)

/-- What the calls of `ks_listen` answer. -/
structure KsListenCalls where
  socket : Option Nat
  setsockopt : Bool
  inetPton : Bool
  bind : Bool
  listen : Bool
  fcntl : KsFcntl

/-- `ks_listen`: the listener, or -1. -/
def ksListen (h : KsHeld) (host : CStr) (calls : KsListenCalls) : KsHeld × Option Nat :=
  match calls.socket with
  | none => (h, none)
  | some fd =>
    let h := h.opened fd
    if calls.setsockopt = false then (ksClose h fd, none)
    else if host.bytes ≠ [] ∧ calls.inetPton = false then (ksClose h fd, none)
    else if calls.bind = false then (ksClose h fd, none)
    else if calls.listen = false then (ksClose h fd, none)
    else
      match ksSetNonblock h fd calls.fcntl with
      | (h, false) => (ksClose h fd, none)
      | (h, true) => (h, some fd)

/-- One answer of `accept`; a descriptor comes with what `fcntl` answers for it
and what `client_init` is allocated. -/
inductive KsAcceptCall where
  | ok (fd : Nat) (fcntl : KsFcntl) (heap : KsHeap)
  | interrupted
  | wouldBlock
  | error

/-- `ks_accept`: what it returns, the answers that are left, and what is held. -/
def ksAccept (h : KsHeld) : List KsAcceptCall → KsAccept × List KsAcceptCall × KsHeld
  | [] => (.wouldBlock, [], h)
  | .interrupted :: calls => ksAccept h calls
  | .wouldBlock :: calls => (.wouldBlock, calls, h)
  | .error :: calls => (.error, calls, h)
  | .ok fd fcntl heap :: calls =>
    match ksSetNonblock (h.opened fd) fd fcntl with
    | (h, false) => (.error, calls, ksClose h fd)
    | (h, true) => (.ok fd heap, calls, { h with offered := h.offered + 1 })

/-- One answer of `recv`; bytes come with what the commands get that they bring. -/
inductive KsRecvCall where
  | bytes (data : List UInt8) (env : Nat → KsCommandEnv)
  | interrupted
  | wouldBlock
  | error

/-- `ks_recv` into a buffer that has room: what it returns, and the answers that
are left. -/
def ksRecv : List KsRecvCall → KsRecv × List KsRecvCall
  | [] => (.wouldBlock, [])
  | .interrupted :: calls => ksRecv calls
  | .wouldBlock :: calls => (.wouldBlock, calls)
  | .error :: calls => (.error, calls)
  | .bytes data env :: calls => (if data = [] then .closed else .ok data env, calls)

/-- One answer of `send`. -/
inductive KsSendCall where
  | taken (bytes : Nat)
  | interrupted
  | wouldBlock
  | error
  deriving DecidableEq, Repr

/-- `ks_send` of some bytes. -/
def ksSend : List KsSendCall → KsSend × List KsSendCall
  | [] => (.wouldBlock, [])
  | .interrupted :: calls => ksSend calls
  | .wouldBlock :: calls => (.wouldBlock, calls)
  | .error :: calls => (.error, calls)
  | .taken bytes :: calls => (if bytes = 0 then .closed else .ok bytes, calls)

/-! ## one result after the other -/

/-- The results of `ks_accept`, call after call. -/
def acceptResults : List KsAcceptCall → List KsAccept
  | [] => []
  | .interrupted :: calls => acceptResults calls
  | .wouldBlock :: calls => .wouldBlock :: acceptResults calls
  | .error :: calls => .error :: acceptResults calls
  | .ok fd fcntl heap :: calls =>
    (if fcntl.getfl && fcntl.setfl then .ok fd heap else .error) :: acceptResults calls

/-- The results of `ks_recv`, call after call. -/
def recvResults : List KsRecvCall → List KsRecv
  | [] => []
  | .interrupted :: calls => recvResults calls
  | .wouldBlock :: calls => .wouldBlock :: recvResults calls
  | .error :: calls => .error :: recvResults calls
  | .bytes data env :: calls =>
    (if data = [] then .closed else .ok data env) :: recvResults calls

/-- The results of `ks_send`, call after call. -/
def sendResults : List KsSendCall → List KsSend
  | [] => []
  | .interrupted :: calls => sendResults calls
  | .wouldBlock :: calls => .wouldBlock :: sendResults calls
  | .error :: calls => .error :: sendResults calls
  | .taken bytes :: calls => (if bytes = 0 then .closed else .ok bytes) :: sendResults calls

variable {cfg : KsConfig}

/-- Every `ks_recv` of `read_client` gets the next result. -/
theorem readClient_recvResults (s : KsServer cfg) (i : Fin cfg.maxClients)
    (calls : List KsRecvCall) :
    readClient s i (recvResults calls) =
      readClient s i ((ksRecv calls).1 :: recvResults (ksRecv calls).2) := by
  induction calls with
  | nil =>
    rw [recvResults, readClient.eq_def, readClient.eq_def s i (_ :: _)]
    rfl
  | cons call calls ih =>
    cases call with
    | interrupted => exact ih
    | _ => rfl

/-- Every `ks_send` of `write_client` gets the next result. -/
theorem writeClient_sendResults (c : KsClient) (calls : List KsSendCall) :
    writeClient c (sendResults calls) =
      writeClient c ((ksSend calls).1 :: sendResults (ksSend calls).2) := by
  induction calls with
  | nil =>
    rw [sendResults, writeClient.eq_def, writeClient.eq_def c (_ :: _)]
    rfl
  | cons call calls ih =>
    cases call with
    | interrupted => exact ih
    | _ => rfl

/-! ## what is held -/

/-- The account has no fault, `rs` is what is held, and no descriptor in it
blocks. -/
structure KsHeld.Owns (h : KsHeld) (rs : Finset KsResource) : Prop where
  holds : h.ledger.Holds rs
  nonblocking : ∀ fd, .descriptor fd ∈ rs → fd ∈ h.nonblocking

section
variable {h : KsHeld} {rs : Finset KsResource} {r : KsResource} {fd : Nat}

/-- At first nothing is held. -/
theorem owns_init : KsHeld.init.Owns ∅ := ⟨Ledger.holds_empty, by simp⟩

/-- A block is allocated. -/
theorem KsHeld.Owns.take (h₀ : h.Owns rs) (hr : r ∉ rs) (hblock : ∀ fd, r ≠ .descriptor fd) :
    (h.take r).Owns (insert r rs) := by
  refine ⟨h₀.holds.take hr, fun fd hfd => h₀.nonblocking fd ?_⟩
  exact (Finset.mem_insert.mp hfd).resolve_left (hblock fd).symm

/-- What is given back is no longer held. -/
theorem KsHeld.Owns.give (h₀ : h.Owns rs) (hr : r ∈ rs) : (h.give r).Owns (rs.erase r) :=
  ⟨h₀.holds.give hr, fun fd hfd => h₀.nonblocking fd (Finset.mem_of_mem_erase hfd)⟩

/-- What was taken last is given back. -/
theorem KsHeld.Owns.give_insert (h₀ : h.Owns (insert r rs)) (hr : r ∉ rs) : (h.give r).Owns rs :=
  ⟨h₀.holds.give_insert hr, fun fd hfd => h₀.nonblocking fd (Finset.mem_insert_of_mem hfd)⟩

/-- A block is allocated and freed. -/
theorem KsHeld.Owns.take_give (h₀ : h.Owns rs) (hr : r ∉ rs) : ((h.take r).give r).Owns rs :=
  ⟨h₀.holds.take_give hr, h₀.nonblocking⟩

/-- `ks_close` gives the descriptor back. -/
theorem KsHeld.Owns.close (h₀ : h.Owns rs) (hfd : .descriptor fd ∈ rs) :
    (ksClose h fd).Owns (rs.erase (.descriptor fd)) := by
  refine ⟨h₀.holds.give hfd, fun fd' hfd' => Finset.mem_erase.mpr ⟨?_, ?_⟩⟩
  · rintro rfl
    exact Finset.notMem_erase _ _ hfd'
  · exact h₀.nonblocking fd' (Finset.mem_of_mem_erase hfd')

/-- The descriptor that was taken last is closed. -/
theorem KsHeld.Owns.close_insert (h₀ : h.Owns (insert (.descriptor fd) rs))
    (hfd : .descriptor fd ∉ rs) : (ksClose h fd).Owns rs := by
  have hclose := h₀.close (Finset.mem_insert_self _ _)
  rwa [Finset.erase_insert hfd] at hclose

/-- A new descriptor is closed again. -/
theorem KsHeld.Owns.opened_close (h₀ : h.Owns rs) (hfd : .descriptor fd ∉ rs) :
    (ksClose (h.opened fd) fd).Owns rs := by
  refine ⟨h₀.holds.take_give hfd, fun fd' hfd' => ?_⟩
  have hne : fd' ≠ fd := by
    rintro rfl
    exact hfd hfd'
  exact Finset.mem_erase.mpr ⟨hne, Finset.mem_erase.mpr ⟨hne, h₀.nonblocking fd' hfd'⟩⟩

/-- A new descriptor is made non-blocking. -/
theorem KsHeld.Owns.opened_nonblock (h₀ : h.Owns rs) (hfd : .descriptor fd ∉ rs) :
    KsHeld.Owns { h.opened fd with nonblocking := insert fd (h.opened fd).nonblocking }
      (insert (.descriptor fd) rs) := by
  refine ⟨h₀.holds.take hfd, fun fd' hfd' => ?_⟩
  by_cases hne : fd' = fd
  · exact hne ▸ Finset.mem_insert_self _ _
  · have hmem := (Finset.mem_insert.mp hfd').resolve_left (by simpa using hne)
    exact Finset.mem_insert_of_mem (Finset.mem_erase.mpr ⟨hne, h₀.nonblocking fd' hmem⟩)

/-- A descriptor that is returned is held besides `rs`. -/
def KsHeld.OwnsAlso (h : KsHeld) (rs : Finset KsResource) : Option Nat → Prop
  | some fd => h.Owns (insert (.descriptor fd) rs)
  | none => h.Owns rs

/-- **`ks_listen`** holds the listener it returns, which does not block, or
nothing new. -/
theorem ksListen_spec (h₀ : h.Owns rs) (host : CStr) {calls : KsListenCalls}
    (hfresh : ∀ fd, calls.socket = some fd → .descriptor fd ∉ rs) :
    (ksListen h host calls).1.OwnsAlso rs (ksListen h host calls).2 ∧
      (ksListen h host calls).1.offered = h.offered := by
  cases hsocket : calls.socket with
  | none =>
    simp only [ksListen, hsocket]
    exact ⟨h₀, trivial⟩
  | some fd =>
    have hclose : (ksClose (h.opened fd) fd).Owns rs := h₀.opened_close (hfresh fd hsocket)
    have hopen := h₀.opened_nonblock (hfresh fd hsocket)
    simp only [ksListen, hsocket]
    by_cases hsetsockopt : calls.setsockopt = false
    · rw [if_pos hsetsockopt]
      exact ⟨hclose, rfl⟩
    rw [if_neg hsetsockopt]
    by_cases haddress : host.bytes ≠ [] ∧ calls.inetPton = false
    · rw [if_pos haddress]
      exact ⟨hclose, rfl⟩
    rw [if_neg haddress]
    by_cases hbind : calls.bind = false
    · rw [if_pos hbind]
      exact ⟨hclose, rfl⟩
    rw [if_neg hbind]
    by_cases hlisten : calls.listen = false
    · rw [if_pos hlisten]
      exact ⟨hclose, rfl⟩
    rw [if_neg hlisten, ksSetNonblock]
    by_cases hgetfl : calls.fcntl.getfl = false
    · rw [if_pos hgetfl]
      exact ⟨hclose, rfl⟩
    rw [if_neg hgetfl]
    by_cases hsetfl : calls.fcntl.setfl = false
    · rw [if_pos hsetfl]
      exact ⟨hclose, rfl⟩
    rw [if_neg hsetfl]
    exact ⟨hopen, rfl⟩

/-- The descriptor that the kernel answers next is not open. -/
def FreshNext (rs : Finset KsResource) : List KsAcceptCall → Prop
  | .interrupted :: calls => FreshNext rs calls
  | .ok fd _ _ :: _ => .descriptor fd ∉ rs
  | _ => True

/-- The descriptor that `ks_accept` returns. -/
def KsAccept.descriptor : KsAccept → Option Nat
  | .ok fd _ => some fd
  | _ => none

/-- **`ks_accept`** holds the descriptor it returns, which does not block, or
nothing new. -/
theorem ksAccept_spec (h₀ : h.Owns rs) {calls : List KsAcceptCall} (hfresh : FreshNext rs calls) :
    (ksAccept h calls).2.2.OwnsAlso rs (ksAccept h calls).1.descriptor ∧
      (∀ fd, (ksAccept h calls).1.descriptor = some fd → .descriptor fd ∉ rs) ∧
      (ksAccept h calls).2.2.offered =
        h.offered + if (ksAccept h calls).1.descriptor.isSome then 1 else 0 := by
  induction calls with
  | nil => exact ⟨h₀, by simp [ksAccept, KsAccept.descriptor], by simp [ksAccept, KsAccept.descriptor]⟩
  | cons call calls ih =>
    cases call with
    | interrupted => exact ih hfresh
    | wouldBlock | error =>
      exact ⟨h₀, by simp [ksAccept, KsAccept.descriptor], by simp [ksAccept, KsAccept.descriptor]⟩
    | ok fd fcntl heap =>
      have hclose : (ksClose (h.opened fd) fd).Owns rs := h₀.opened_close hfresh
      have hnew : .descriptor fd ∉ rs := hfresh
      have hopen := h₀.opened_nonblock hnew
      rw [ksAccept, ksSetNonblock]
      by_cases hgetfl : fcntl.getfl = false
      · rw [if_pos hgetfl]
        exact ⟨hclose, by simp [KsAccept.descriptor], by simp [KsAccept.descriptor]; rfl⟩
      rw [if_neg hgetfl]
      by_cases hsetfl : fcntl.setfl = false
      · rw [if_pos hsetfl]
        exact ⟨hclose, by simp [KsAccept.descriptor], by simp [KsAccept.descriptor]; rfl⟩
      rw [if_neg hsetfl]
      refine ⟨⟨hopen.holds, hopen.nonblocking⟩, fun fd' hfd' => ?_, rfl⟩
      rw [← Option.some.inj hfd']
      exact hfresh

end

end Kessel
