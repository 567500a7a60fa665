import Kessel.Kv.Live
import Kessel.Pubsub.Refine
import Kessel.Server.Service

/-!
# Kessel.Server.Serve

Every command does what the broker does.

`Serves` is one command against the broker: whatever the table of the store and
the lists of the registry look like, the frame that is sent says what the broker
answers, and the server shows what the broker has become (`KsKv.Shows`,
`KsPubsub.Represents`).

* `runCommand_serves` — every command but `PUBLISH`, which delivers.
-/

namespace Kessel

open Broker CStr TimedMap

/-! ## the entries of the store -/

/-- A reader of the store sees the entries, from `t` on, and the table holds no
key but theirs. -/
structure KsKv.Shows (store : KsKv) (t : UInt64) (m : KsKvRef) : Prop where
  shown : ∀ later, t ≤ later → store.liveAt later = view later.toNat m
  keys : ∀ k, (store.timed k).isSome → (m k).isSome

namespace KsKv.Shows

variable {store store' : KsKv} {t t' : UInt64} {m : KsKvRef}

/-- An empty store shows nothing. -/
theorem init (t : UInt64) : ksKvInit.Shows t fun _ => none where
  shown := by
    intro later _
    funext key
    simp [liveAt_eq, ksKvInit, KsDsTable.get_init, view]
  keys := by simp [timed, ksKvInit, KsDsTable.get_init]

/-- Time only takes entries away. -/
theorem mono (h : store.Shows t m) (hle : t ≤ t') : store.Shows t' m :=
  ⟨fun later hlater => h.shown later (UInt64.le_trans hle hlater), h.keys⟩

/-- What the store shows at `t`. -/
theorem now (h : store.Shows t m) : store.liveAt t = view t.toNat m :=
  h.shown t (UInt64.le_refl t)

/-- A change that nobody sees. -/
theorem unseen (h : store.Shows t m) (hkept : store.Unseen t store') : store'.Shows t m :=
  ⟨fun later hlater => (hkept.same later hlater).trans (h.shown later hlater),
    fun k hk => h.keys k (hkept.keys k hk)⟩

/-- The same write to the store and to the entries. -/
theorem write (h : store.Shows t m) {key : CStr} {e : Option (Entry (List UInt8))}
    (hw : store.Writes t key e store') : store'.Shows t (Function.update m key e) where
  shown := by
    intro later hlater
    rw [hw.shows later hlater, h.shown later hlater, view_update]
  keys := by
    intro k hk
    have hkey := hw.keys k hk
    rw [Function.update_apply] at hkey ⊢
    split at hkey
    · next heq => rwa [if_pos heq]
    · next hne =>
      rw [if_neg hne]
      exact h.keys k hkey

end KsKv.Shows

/-- The deadline of an entry is the one that the store writes down. -/
theorem askedDeadline_eq (now ttlSeconds : UInt64) :
    askedDeadline now ttlSeconds =
      ksScale.deadline now.toNat (if ttlSeconds = 0 then none else some ttlSeconds.toNat) := by
  unfold askedDeadline Scale.deadline ksScale
  split <;> rfl

/-- The seconds that are left are the answer of `ks_kv_ttl`. -/
theorem ttlAnswer_eq (now : UInt64) (e : Option (Entry (List UInt8)))
    (h : ∀ d ∈ e.bind Entry.deadline, d < 2 ^ 64) : ttlAnswer now e = ksScale.left now.toNat e := by
  rcases e with _ | ⟨value, _ | d⟩
  · rfl
  · rfl
  · have hd : d < 2 ^ 64 := h d rfl
    unfold ttlAnswer Scale.left ksScale
    simp only
    split
    · rfl
    · exact Word.i64_div_thousand (by omega)

/-- The seconds that are left fit into a signed number. -/
theorem left_range {e : Option (Entry (List UInt8))} (now : Nat)
    (h : ∀ d ∈ e.bind Entry.deadline, d < 2 ^ 64) :
    -2 ^ 63 ≤ ksScale.left now e ∧ ksScale.left now e < 2 ^ 63 := by
  rcases e with _ | ⟨value, _ | d⟩
  · simp [Scale.left]
  · simp [Scale.left]
  · have hd : d < 2 ^ 64 := h d rfl
    unfold Scale.left ksScale
    simp only
    split <;> omega

/-- The deadline of a live entry is a 64-bit number. -/
theorem KsKv.Bounded.liveAt_deadline {store : KsKv} (h : store.Bounded) (now : UInt64)
    (key : CStr) : ∀ d ∈ (store.liveAt now key).bind Entry.deadline, d < 2 ^ 64 := by
  intro d hd
  obtain ⟨e, he, hdeadline⟩ := Option.mem_bind_iff.mp hd
  rw [KsKv.liveAt_eq] at he
  obtain ⟨v, hv, rfl⟩ := Option.map_eq_some_iff.mp he
  exact KsKvValue.timed_deadline_lt (h key v (Option.filter_eq_some_iff.mp hv).1).2 hdeadline

/-- `parse_seconds` accepts signed numbers. -/
theorem parseSeconds_lt {text : CStr} {n : Int} (h : parseSeconds text = some n) : n < 2 ^ 63 := by
  unfold parseSeconds at h
  split at h
  · cases h
  · split at h
    · cases h
    · next parsed rest hparsed =>
      have hn : parsed = n := by
        split at h
        · exact Option.some.inj h
        · cases h
      subst hn
      unfold strtoll at hparsed
      grind

/-! ## one command -/

/-- One command against the broker: the reply says what the broker answers to
what is asked for. -/
inductive Serves (scarce : Prop) (clock : KsReadings) (x : UInt64) (m : KsKvRef)
    (subs : Finset (CStr × UInt64)) :
    KsMeaning → KsReply → KsKvRef → Finset (CStr × UInt64) → Prop where
  | plain (f : CliFrame) (reply : KsReply) : reply.Says f →
      Serves scarce clock x m subs (.inl f) reply m subs
  | granted (ask : KsAsk) (answer : KsAnswer) (f : CliFrame) (reply : KsReply) (m' : KsKvRef)
      (subs' : Finset (CStr × UInt64)) :
      Grants ksScale scarce clock.first.toNat clock.second.toNat x m subs ask answer m' subs' →
      KsTells ask answer f → reply.Says f → Serves scarce clock x m subs (.inr ask) reply m' subs'

/-- Every command has a reply. -/
theorem Serves.said {scarce : Prop} {clock : KsReadings} {x : UInt64} {m m' : KsKvRef}
    {subs subs' : Finset (CStr × UInt64)} {meaning : KsMeaning} {reply : KsReply}
    (h : Serves scarce clock x m subs meaning reply m' subs') : ∃ f, reply.Says f := by
  cases h with
  | plain f _ hsaid => exact ⟨f, hsaid⟩
  | granted _ _ f _ _ _ _ _ hsaid => exact ⟨f, hsaid⟩

/-- What is asked for needs memory that is not granted. -/
def lacksMemory (store : KsKv) (pubsub : KsPubsub) (env : KsCommandEnv) : KsMeaning → Prop
  | .inr (.set key value seconds) =>
    ksKvSetExRefused store key value (seconds.elim 0 UInt64.ofNat) env.heap env.clock = true
  | .inr (.subscribe channel) => Refused pubsub.pairs channel env.heap
  | _ => False

/-- Memory is short at a time at which an allocation is refused, and beside so
many entries or subscriptions that there is no address left. -/
def ksShort (refused : Nat → Prop) : Shortage CStr (List UInt8) CStr UInt64 := fun now m subs =>
  refused now ∨ (∃ n : Nat, KsDs.AddressSpaceFull n ∧ (n : ℕ∞) ≤ {k | (m k).isSome}.encard) ∨
    Word.sizeMax < (subs.card + 1) * ksPubsubSubscriberSize

/-- A command lacks memory only when memory is short. -/
theorem lacksMemory_short {store : KsKv} {pubsub : KsPubsub} {env : KsCommandEnv} {t : UInt64}
    {m : KsKvRef} {subs : Finset (CStr × UInt64)} {refused : Nat → Prop} {now : Nat}
    (hm : store.Shows t m) (hsubs : pubsub.Represents subs)
    (hheap : ∀ site, env.heap site = false → refused now) {meaning : KsMeaning}
    (h : lacksMemory store pubsub env meaning) : ksShort refused now m subs := by
  unfold lacksMemory at h
  split at h
  · next key value seconds =>
    rcases ksKvSetExRefused_cases _ _ _ _ _ _ h with ⟨site, hsite⟩ | ⟨n, hfull, hn⟩
    · exact .inl (hheap site hsite)
    · exact .inr (.inl ⟨n, hfull, hn.trans (Set.encard_le_encard hm.keys)⟩)
  · next channel =>
    rw [hsubs.pairs] at h
    rcases h with hnode | ⟨-, hname | hchannel⟩ | hfull
    · exact .inl (hheap _ hnode)
    · exact .inl (hheap _ hname)
    · exact .inl (hheap _ hchannel)
    · exact .inr (.inr hfull)
  · cases h

/-- One command on the store. -/
def ServesStore (scarce : Prop) (clock : KsReadings) (x : UInt64) (m : KsKvRef)
    (subs : Finset (CStr × UInt64)) (meaning : KsMeaning) (r : KsKv × KsReply) : Prop :=
  ∃ m', Serves scarce clock x m subs meaning r.2 m' subs ∧ r.1.Shows clock.second m'

section

variable {store store' : KsKv} {m : KsKvRef} {clock : KsReadings} {x : UInt64}
  {subs : Finset (CStr × UInt64)} {scarce : Prop}

/-- A command that is answered without a look at the store. -/
theorem servesStore_plain (hm : store.Shows clock.first m) (hle : clock.first ≤ clock.second)
    {f : CliFrame} {reply : KsReply} (h : reply.Says f) :
    ServesStore scarce clock x m subs (.inl f) (store, reply) :=
  ⟨m, .plain f reply h, hm.mono hle⟩

/-- A question changes nothing that a reader sees. -/
theorem servesStore_read (hm : store.Shows clock.first m) (hle : clock.first ≤ clock.second)
    {ask : KsAsk} {answer : KsAnswer} {f : CliFrame} {reply : KsReply}
    (hsame : store.Unseen clock.first store')
    (hgrants : Grants ksScale scarce clock.first.toNat clock.second.toNat x m subs ask answer m subs)
    (htells : KsTells ask answer f) (h : reply.Says f) :
    ServesStore scarce clock x m subs (.inr ask) (store', reply) :=
  ⟨m, .granted ask answer f reply m subs hgrants htells h, (hm.unseen hsame).mono hle⟩

/-- A change of one key. -/
theorem servesStore_write (hm : store.Shows clock.first m) (hle : clock.first ≤ clock.second)
    {ask : KsAsk} {answer : KsAnswer} {f : CliFrame} {reply : KsReply} {key : CStr}
    {e : Option (Entry (List UInt8))} (hw : store.Writes clock.first key e store')
    (hgrants : Grants ksScale scarce clock.first.toNat clock.second.toNat x m subs ask answer
      (Function.update m key e) subs)
    (htells : KsTells ask answer f) (h : reply.Says f) :
    ServesStore scarce clock x m subs (.inr ask) (store', reply) :=
  ⟨_, .granted ask answer f reply _ subs hgrants htells h, (hm.write hw).mono hle⟩

variable {args : List CStr} {env : KsCommandEnv}

/-- `ks_kv_set_ex`, and its two replies. -/
theorem ksKvSetEx_serves (hm : store.Shows env.clock.first m)
    (hle : env.clock.first ≤ env.clock.second) (pubsub : KsPubsub) (key : CStr) {value : CStr}
    (hvalue : value.length ≤ ksMaxRequest) {seconds : Option Nat} {ttl : UInt64}
    (hseconds : seconds = if ttl = 0 then none else some ttl.toNat)
    (hlacks : seconds.elim 0 UInt64.ofNat = ttl) :
    ServesStore (lacksMemory store pubsub env (.inr (.set key value.bytes seconds))) env.clock x m
      subs (.inr (.set key value.bytes seconds))
      (if (ksKvSetEx store key value.bytes ttl env.heap env.clock).2 = .error then
        ((ksKvSetEx store key value.bytes ttl env.heap env.clock).1,
          .error (ascii "unable to store value"))
      else
        ((ksKvSetEx store key value.bytes ttl env.heap env.clock).1,
          respond (ksFmtSimple · · · (ascii "OK")))) := by
  have hasked := askedDeadline_eq env.clock.second ttl
  rw [← hseconds] at hasked
  rcases ksKvSetEx_live store key value.bytes ttl env.heap env.clock with
    ⟨herror, hsame, hrefused⟩ | ⟨d, hstored, hstorable, hresult, hwrites⟩
  · rw [if_pos herror]
    refine servesStore_read hm hle hsame (.setRefused key value.bytes _ ?_)
      (.notStored key value.bytes _) (says_error (by decide))
    rcases ksKvSetEx_deadline env.clock.second ttl with ⟨hnone, -⟩ | ⟨d, -, -, hsome⟩
    · exact .inl (hasked.symm.trans hnone)
    · refine .inr ?_
      rw [lacksMemory, hlacks]
      refine hrefused ⟨?_, ?_⟩
      · rw [storedDeadline, hsome]
        simp
      · unfold ksKvValueSize Word.sizeMax
        exact Nat.le_trans hvalue (by decide)
  · have hok : (ksKvSetEx store key value.bytes ttl env.heap env.clock).2 ≠ .error := by
      rw [hresult]
      split <;> decide
    rw [if_neg hok]
    rcases ksKvSetEx_deadline env.clock.second ttl with ⟨-, hnone⟩ | ⟨d', -, hd', hsome⟩
    · rw [storedDeadline, hnone] at hstored
      cases hstored
    · rw [storedDeadline, hsome, Option.some.injEq] at hstored
      subst hstored
      exact servesStore_write hm hle hwrites (.set key value.bytes _ _ (hasked.symm.trans hd'))
        (.stored key value.bytes _) says_ok

/-- **`SET`** writes a value without a deadline. -/
theorem commandSet_serves (hm : store.Shows env.clock.first m)
    (hle : env.clock.first ≤ env.clock.second) (pubsub : KsPubsub)
    (hargs : ∀ a ∈ args, a.length ≤ ksMaxRequest) {meaning : KsMeaning}
    (hmeaning : meaning = binary "SET" (fun key value => .inr (.set key value.bytes none)) args) :
    ServesStore (lacksMemory store pubsub env meaning) env.clock x m subs meaning
      (commandSet store args env) := by
  subst hmeaning
  unfold commandSet
  split
  · next key value =>
    have hnone : (none : Option Nat) = if (0 : UInt64) = 0 then none else some 0 := rfl
    exact ksKvSetEx_serves hm hle pubsub key (hargs value (by simp)) hnone rfl
  · next hne =>
    rw [binary_of_ne hne]
    exact servesStore_plain hm hle (says_wrongArity (by decide))

/-- **`SETEX`** writes a value with a deadline. -/
theorem commandSetex_serves (hm : store.Shows env.clock.first m)
    (hle : env.clock.first ≤ env.clock.second) (pubsub : KsPubsub)
    (hargs : ∀ a ∈ args, a.length ≤ ksMaxRequest) {meaning : KsMeaning}
    (hmeaning : meaning = ternary "SETEX" setexMeaning args) :
    ServesStore (lacksMemory store pubsub env meaning) env.clock x m subs meaning
      (commandSetex store args env) := by
  subst hmeaning
  unfold commandSetex
  split
  · next key seconds value =>
    rw [ternary, setexMeaning]
    cases hparsed : parseSeconds seconds with
    | none => exact servesStore_plain hm hle (says_error (by decide))
    | some n =>
      have hlt := parseSeconds_lt hparsed
      by_cases hn : n ≤ 0
      · simp only [if_pos hn]
        exact servesStore_plain hm hle (says_error (by decide))
      · simp only [if_neg hn]
        have htoNat : (UInt64.ofNat n.toNat).toNat = n.toNat := by
          rw [UInt64.toNat_ofNat']
          omega
        refine ksKvSetEx_serves hm hle pubsub key (hargs value (by simp)) ?_ rfl
        rw [if_neg, htoNat]
        intro hzero
        rw [hzero, UInt64.toNat_zero] at htoNat
        omega
  · next hne =>
    rw [ternary_of_ne hne]
    exact servesStore_plain hm hle (says_wrongArity (by decide))

/-- **`GET`** reads a value. -/
theorem commandGet_serves (hm : store.Shows env.clock.first m)
    (hle : env.clock.first ≤ env.clock.second) (hbounded : store.Bounded) {meaning : KsMeaning}
    (hmeaning : meaning = unary "GET" (fun key => .inr (.get key)) args) :
    ServesStore scarce env.clock x m subs meaning (commandGet store args env) := by
  subst hmeaning
  unfold commandGet
  split
  · next key =>
    obtain ⟨-, hvalue⟩ := hbounded.ksKvGet key env.clock
    obtain ⟨hanswer, hsame⟩ := ksKvGet_live store key env.clock
    have hgrants : Grants ksScale scarce env.clock.first.toNat env.clock.second.toNat x m subs
        (.get key) (.value (ksKvGet store key env.clock).2) m subs := by
      rw [hanswer, hm.now]
      exact .get key
    generalize ksKvGet store key env.clock = r at *
    obtain ⟨store', value⟩ := r
    cases value with
    | none => exact servesStore_read hm hle hsame hgrants (.missing key) says_nil
    | some value =>
      exact servesStore_read hm hle hsame hgrants (.found key value) (says_bulk (hvalue value rfl))
  · next hne =>
    rw [unary_of_ne hne]
    exact servesStore_plain hm hle (says_wrongArity (by decide))

/-- `ks_kv_delete`, and the reply of `DEL` and of an `EXPIRE` that is over. -/
theorem ksKvDelete_serves (hm : store.Shows env.clock.first m)
    (hle : env.clock.first ≤ env.clock.second) (key : CStr) :
    ServesStore scarce env.clock x m subs (.inr (.remove key))
      ((ksKvDelete store key env.clock).1,
        respond (ksFmtInt · · · (if (ksKvDelete store key env.clock).2 then 1 else 0))) := by
  obtain ⟨hanswer, hwrites⟩ := ksKvDelete_live store key env.clock
  refine servesStore_write hm hle hwrites ?_ (.removed key _) (says_flag _)
  rw [hanswer, hm.now]
  exact .remove key

/-- **`DEL`** removes a key. -/
theorem commandDel_serves (hm : store.Shows env.clock.first m)
    (hle : env.clock.first ≤ env.clock.second) {meaning : KsMeaning}
    (hmeaning : meaning = unary "DEL" (fun key => .inr (.remove key)) args) :
    ServesStore scarce env.clock x m subs meaning (commandDel store args env) := by
  subst hmeaning
  unfold commandDel
  split
  · next key => exact ksKvDelete_serves hm hle key
  · next hne =>
    rw [unary_of_ne hne]
    exact servesStore_plain hm hle (says_wrongArity (by decide))

/-- **`EXISTS`** looks for a key. -/
theorem commandExists_serves (hm : store.Shows env.clock.first m)
    (hle : env.clock.first ≤ env.clock.second) {meaning : KsMeaning}
    (hmeaning : meaning = unary "EXISTS" (fun key => .inr (.contains key)) args) :
    ServesStore scarce env.clock x m subs meaning (commandExists store args env) := by
  subst hmeaning
  unfold commandExists
  split
  · next key =>
    obtain ⟨hanswer, hsame⟩ := ksKvExists_live store key env.clock
    have hgrants : Grants ksScale scarce env.clock.first.toNat env.clock.second.toNat x m subs
        (.contains key) (.flag (ksKvExists store key env.clock).2) m subs := by
      rw [hanswer, hm.now]
      exact .contains key
    exact servesStore_read hm hle hsame hgrants (.contained key _) (says_flag _)
  · next hne =>
    rw [unary_of_ne hne]
    exact servesStore_plain hm hle (says_wrongArity (by decide))

/-- `ks_kv_expire` with a lifetime, and its replies. -/
theorem ksKvExpire_serves (hm : store.Shows env.clock.first m)
    (hle : env.clock.first ≤ env.clock.second) (key : CStr) {ttl : UInt64} (httl : ttl ≠ 0) :
    ServesStore scarce env.clock x m subs (.inr (.expire key ttl.toNat))
      (if (ksKvExpire store key ttl env.clock).2 = .error then
        ((ksKvExpire store key ttl env.clock).1, .error (ascii "invalid expire time"))
      else
        ((ksKvExpire store key ttl env.clock).1,
          respond (ksFmtInt · · ·
            (if (ksKvExpire store key ttl env.clock).2 = .updated then 1 else 0)))) := by
  have hasked := askedDeadline_eq env.clock.second ttl
  rw [if_neg httl] at hasked
  rcases ksKvExpire_live store key ttl env.clock with ⟨hnone, hresult, hsame⟩ | ⟨e, he, hresult, heffect⟩
  · rw [hm.now] at hnone
    rw [hresult]
    exact servesStore_read hm hle hsame (.expireMissing key _ hnone) (.expires key _ false)
      (says_flag false)
  · rw [hm.now] at he
    rw [expireEffect, if_neg httl] at hresult heffect
    rcases ksTtlDeadline_spec env.clock.second httl with ⟨hnone, hasked'⟩ | ⟨d, hsome, hpos, -, hasked'⟩
    · rw [hnone] at hresult heffect
      rw [hresult]
      exact servesStore_read hm hle heffect
        (.expireRefused key _ e he (hasked.symm.trans hasked')) (.outOfRange key _)
        (says_error (by decide))
    · rw [hsome] at hresult heffect
      simp only [if_neg (Nat.ne_of_gt hpos)] at hresult heffect
      rw [hresult]
      exact servesStore_write hm hle heffect
        (.expire key _ e (some d) he (hasked.symm.trans hasked')) (.expires key _ true)
        (says_flag true)

/-- **`EXPIRE`** gives a key a deadline, or removes it. -/
theorem commandExpire_serves (hm : store.Shows env.clock.first m)
    (hle : env.clock.first ≤ env.clock.second) {meaning : KsMeaning}
    (hmeaning : meaning = binary "EXPIRE" expireMeaning args) :
    ServesStore scarce env.clock x m subs meaning (commandExpire store args env) := by
  subst hmeaning
  unfold commandExpire
  split
  · next key seconds =>
    rw [binary, expireMeaning]
    cases hparsed : parseSeconds seconds with
    | none => exact servesStore_plain hm hle (says_error (by decide))
    | some n =>
      have hlt := parseSeconds_lt hparsed
      by_cases hn : n ≤ 0
      · simp only [if_pos hn]
        have hdelete : ServesStore scarce env.clock x m subs (.inr (.remove key)) _ :=
          ksKvDelete_serves hm hle key
        generalize ksKvDelete store key env.clock = r at *
        obtain ⟨store', removed⟩ := r
        cases removed <;> exact hdelete
      · simp only [if_neg hn]
        have htoNat : (UInt64.ofNat n.toNat).toNat = n.toNat := by
          rw [UInt64.toNat_ofNat']
          omega
        have hexpire : ServesStore scarce env.clock x m subs
            (.inr (.expire key (UInt64.ofNat n.toNat).toNat)) _ :=
          ksKvExpire_serves hm hle key fun hzero => by
            rw [hzero, UInt64.toNat_zero] at htoNat
            omega
        rw [htoNat] at hexpire
        exact hexpire
  · next hne =>
    rw [binary_of_ne hne]
    exact servesStore_plain hm hle (says_wrongArity (by decide))

/-- **`TTL`** tells the seconds that are left. -/
theorem commandTtl_serves (hm : store.Shows env.clock.first m)
    (hle : env.clock.first ≤ env.clock.second) (hbounded : store.Bounded) {meaning : KsMeaning}
    (hmeaning : meaning = unary "TTL" (fun key => .inr (.lifetime key)) args) :
    ServesStore scarce env.clock x m subs meaning (commandTtl store args env) := by
  subst hmeaning
  unfold commandTtl
  split
  · next key =>
    obtain ⟨hanswer, hsame⟩ := ksKvTtl_live store key env.clock hle
    have hdeadline := hbounded.liveAt_deadline env.clock.first key
    rw [ttlAnswer_eq _ _ hdeadline] at hanswer
    have hrange := left_range env.clock.second.toNat hdeadline
    rw [← hanswer] at hrange
    refine ⟨m, .granted (.lifetime key) _ _ _ m subs ?_ (.left key _) (says_int hrange),
      (hm.mono hle).unseen hsame⟩
    rw [hanswer, hm.now]
    exact .lifetime key
  · next hne =>
    rw [unary_of_ne hne]
    exact servesStore_plain hm hle (says_wrongArity (by decide))

end

/-! ## subscriptions -/

section

variable {store : KsKv} {pubsub : KsPubsub} {m : KsKvRef} {x : UInt64}
  {subs : Finset (CStr × UInt64)} {scarce : Prop} {args : List CStr} {env : KsCommandEnv}

/-- One command on the registry. -/
def ServesRegistry (scarce : Prop) (clock : KsReadings) (x : UInt64) (m : KsKvRef)
    (subs : Finset (CStr × UInt64)) (meaning : KsMeaning) (r : KsPubsub × KsReply) : Prop :=
  ∃ subs', Serves scarce clock x m subs meaning r.2 m subs' ∧ r.1.Represents subs'

/-- **`SUBSCRIBE`** adds a pair, or lacks the memory for it. -/
theorem commandSubscribe_serves (h : pubsub.Represents subs) (store : KsKv) {meaning : KsMeaning}
    (hmeaning : meaning = unary "SUBSCRIBE" subscribeMeaning args) :
    ServesRegistry (lacksMemory store pubsub env meaning) env.clock x m subs meaning
      (commandSubscribe pubsub x args env) := by
  subst hmeaning
  unfold commandSubscribe
  split
  · next channel =>
    rw [unary, subscribeMeaning]
    obtain ⟨subs', hspec, h'⟩ := h.subscribe channel x env.heap
    generalize ksPubsubSubscribe pubsub channel x env.heap = r at *
    obtain ⟨pubsub', status⟩ := r
    cases hspec with
    | subscribed hne hnew =>
      rw [if_neg hne]
      exact ⟨_, .granted _ _ _ _ m _ (.subscribe channel) (.subscribed channel) says_ok, h'⟩
    | already hne hmem =>
      rw [if_neg hne]
      refine ⟨_, .granted _ _ _ _ m _ (.subscribe channel) (.subscribed channel) says_ok, ?_⟩
      rw [Finset.insert_eq_of_mem hmem]
      exact h'
    | noMemory hne hnew hrefused =>
      rw [if_neg hne]
      refine ⟨_, .granted _ _ _ _ m _ (.subscribeRefused channel hnew ?_) (.notSubscribed channel)
        (says_error (by decide)), h'⟩
      rw [lacksMemory, h.pairs]
      exact hrefused
    | noName hempty =>
      rw [if_pos hempty]
      exact ⟨_, .plain _ _ (says_error (by decide)), h'⟩
  · next hne =>
    rw [unary_of_ne hne]
    exact ⟨_, .plain _ _ (says_wrongArity (by decide)), h⟩

/-- **`UNSUBSCRIBE`** takes a pair away. -/
theorem commandUnsubscribe_serves (h : pubsub.Represents subs) {meaning : KsMeaning}
    (hmeaning : meaning = unary "UNSUBSCRIBE" (fun channel => .inr (.unsubscribe channel)) args) :
    ServesRegistry scarce env.clock x m subs meaning (commandUnsubscribe pubsub x args) := by
  subst hmeaning
  unfold commandUnsubscribe
  split
  · next channel =>
    obtain ⟨subs', hspec, h'⟩ := h.unsubscribe channel x
    have hserves (b : Bool) (hb : decide ((channel, x) ∈ subs) = b)
        (hsubs : subs' = subs.erase (channel, x)) :
        ServesRegistry scarce env.clock x m subs (.inr (.unsubscribe channel))
          ((ksPubsubUnsubscribe pubsub channel x).1,
            respond (ksFmtInt · · · (if b then 1 else 0))) := by
      subst hsubs hb
      exact ⟨_, .granted _ _ _ _ m _ (.unsubscribe channel) (.unsubscribed channel _) (says_flag _), h'⟩
    generalize ksPubsubUnsubscribe pubsub channel x = r at *
    obtain ⟨pubsub', status⟩ := r
    cases hspec with
    | unsubscribed hmem => exact hserves true (decide_eq_true hmem) rfl
    | absent hne hnot =>
      exact hserves false (decide_eq_false hnot) (Finset.erase_eq_of_notMem hnot).symm
    | absentNoName hempty hnot =>
      exact hserves false (decide_eq_false hnot) (Finset.erase_eq_of_notMem hnot).symm
  · next hne =>
    rw [unary_of_ne hne]
    exact ⟨_, .plain _ _ (says_wrongArity (by decide)), h⟩

end

/-! ## `INFO` -/

variable {cfg : KsConfig}

/-- The seconds that `INFO` says the server has been up. -/
def infoUptime (startedAt time : Int64) : Int64 :=
  if time ≠ -1 ∧ startedAt ≠ -1 ∧ startedAt ≤ time then time - startedAt else 0

/-- The text that `INFO` answers. -/
def serverInfo (s : KsServer cfg) (env : KsCommandEnv) : List UInt8 :=
  infoText (infoUptime s.metrics.startedAt env.time).toInt s.metrics cfg.maxClients
    (ksKvSize s.store env.clock.first).2 (ksPubsubChannelCount s.pubsub)
    (ksPubsubSubscriptionCount s.pubsub)

/-- The text of `INFO` fits into its buffer. -/
theorem length_serverInfo (s : KsServer cfg) (env : KsCommandEnv) :
    (serverInfo s env).length < 768 :=
  length_infoText_lt _ s.metrics _ _ cfg.below (ksKvSize_lt s.store env.clock.first)

/-- A text that fits is printed, and can be read back. -/
theorem snprintf_read {text : List UInt8} {cap : Nat} (h : text.length < cap) :
    (snprintf blank 0 cap text).1.read 0 text.length = text := by
  rw [snprintf, if_neg (by omega), List.take_of_length_le (by omega)]
  have hle : text.length ≤ (text ++ [0]).length := by simp
  rw [← Mem.take_read _ hle, Mem.read_write, List.take_left]

/-- **`format_info`** writes the text as one bulk frame. -/
theorem formatInfo_serverInfo (s : KsServer cfg) (env : KsCommandEnv) :
    formatInfo s blank ksResponseCap env =
      ((ksKvSize s.store env.clock.first).1, ksFmtBulk blank 0 ksResponseCap (serverInfo s env)) := by
  have hlen := length_serverInfo s env
  have hread := snprintf_read hlen
  rw [serverInfo, infoUptime] at hlen hread ⊢
  unfold formatInfo
  generalize ksKvSize s.store env.clock.first = k at *
  obtain ⟨store, keys⟩ := k
  simp only at *
  generalize infoText _ s.metrics cfg.maxClients keys (ksPubsubChannelCount s.pubsub)
    (ksPubsubSubscriptionCount s.pubsub) = text at *
  have hwritten : (snprintf blank 0 768 text).2 = text.length := rfl
  generalize snprintf blank 0 768 text = w at *
  obtain ⟨info, written⟩ := w
  simp only at hwritten hread ⊢
  rw [if_neg (by omega), hwritten, hread]

/-! ## all commands but `PUBLISH` -/

/-- One command against the broker. -/
def ServesCommand (s : KsServer cfg) (i : Fin cfg.maxClients) (env : KsCommandEnv) (m : KsKvRef)
    (subs : Finset (CStr × UInt64)) (meaning : KsMeaning) (r : KsServer cfg × KsReply) : Prop :=
  ∃ m' subs', Serves (lacksMemory s.store s.pubsub env meaning) env.clock (s.clients i).id m subs
      meaning r.2 m' subs' ∧
    r.1.store.Shows env.clock.second m' ∧ r.1.pubsub.Represents subs'

section

variable {s : KsServer cfg} {i : Fin cfg.maxClients} {env : KsCommandEnv} {m : KsKvRef}
  {subs : Finset (CStr × UInt64)} {meaning : KsMeaning}

/-- A command on the store, as a command of the server. -/
theorem servesCommand_store (hsubs : s.pubsub.Represents subs) {r : KsKv × KsReply}
    (h : ServesStore (lacksMemory s.store s.pubsub env meaning) env.clock (s.clients i).id m subs
      meaning r) :
    ServesCommand s i env m subs meaning ({ s with store := r.1 }, r.2) := by
  obtain ⟨m', hserves, hshows⟩ := h
  exact ⟨m', subs, hserves, hshows, hsubs⟩

/-- A command on the registry, as a command of the server. -/
theorem servesCommand_registry (hm : s.store.Shows env.clock.first m)
    (hle : env.clock.first ≤ env.clock.second) {r : KsPubsub × KsReply}
    (h : ServesRegistry (lacksMemory s.store s.pubsub env meaning) env.clock (s.clients i).id m subs
      meaning r) :
    ServesCommand s i env m subs meaning ({ s with pubsub := r.1 }, r.2) := by
  obtain ⟨subs', hserves, h'⟩ := h
  exact ⟨m, subs', hserves, hm.mono hle, h'⟩

/-- A command that is answered without a look at either. -/
theorem servesCommand_plain (hm : s.store.Shows env.clock.first m)
    (hle : env.clock.first ≤ env.clock.second) (hsubs : s.pubsub.Represents subs) {f : CliFrame}
    {reply : KsReply} (h : reply.Says f) : ServesCommand s i env m subs (.inl f) (s, reply) :=
  servesCommand_store hsubs (servesStore_plain hm hle h)

/-- `INFO` counts what the broker has. -/
theorem formatInfo_serves (hm : s.store.Shows env.clock.first m)
    (hle : env.clock.first ≤ env.clock.second) (hsubs : s.pubsub.Represents subs) :
    ServesCommand s i env m subs (.inr .census)
      ({ s with store := (formatInfo s blank ksResponseCap env).1 },
        .response (formatInfo s blank ksResponseCap env).2.1
          (formatInfo s blank ksResponseCap env).2.2) := by
  obtain ⟨hsize, hsame⟩ := ksKvSize_live s.store env.clock.first
  have hlen : (serverInfo s env).length ≤ ksMaxRequest :=
    Nat.le_trans (Nat.le_of_lt (length_serverInfo s env)) (by decide)
  have hchannels : ksPubsubChannelCount s.pubsub = UInt64.ofNat (subs.image Prod.fst).card := by
    rw [← hsubs.channelCount, UInt64.ofNat_toNat]
    rfl
  have hcount : ksPubsubSubscriptionCount s.pubsub = UInt64.ofNat subs.card := by
    rw [← hsubs.subscriptionCount, UInt64.ofNat_toNat]
    rfl
  have hcensus : Grants ksScale (lacksMemory s.store s.pubsub env (.inr .census))
      env.clock.first.toNat env.clock.second.toNat (s.clients i).id m subs .census
      (.census (ksKvSize s.store env.clock.first).2 (subs.image Prod.fst).card subs.card) m subs :=
    .census _ (by rw [← hsize, hm.now])
  have htells : KsTells .census
      (.census (ksKvSize s.store env.clock.first).2 (subs.image Prod.fst).card subs.card)
      (.bulk (serverInfo s env)) := by
    rw [serverInfo, hchannels, hcount]
    exact .counted ..
  rw [formatInfo_serverInfo]
  generalize serverInfo s env = text at *
  exact servesCommand_store hsubs (servesStore_read hm hle hsame hcensus htells (says_bulk hlen))

/-- **Every command but `PUBLISH`** does what the broker does. -/
theorem runCommand_serves (hstore : s.store.Bounded) (hm : s.store.Shows env.clock.first m)
    (hle : env.clock.first ≤ env.clock.second) (hsubs : s.pubsub.Represents subs) {name : CStr}
    {args : List CStr} (hargs : (args.map CStr.length).sum ≤ ksMaxRequest)
    (hname : name.bytes ≠ ascii "PUBLISH") :
    ServesCommand s i env m subs (commandMeaning name args) (runCommand s i name args env) := by
  have hlen (a : CStr) (ha : a ∈ args) : a.length ≤ ksMaxRequest :=
    (List.single_le_sum (fun _ _ => Nat.zero_le _) _ (List.mem_map_of_mem ha)).trans hargs
  have hplain {f : CliFrame} {reply : KsReply} (h : reply.Says f) :
      ServesCommand s i env m subs (.inl f) (s, reply) := servesCommand_plain hm hle hsubs h
  unfold commandMeaning runCommand
  extract_lets onStore onPubsub
  by_cases h : name.bytes = ascii "PING"
  · simp only [if_pos h]
    unfold commandPing
    split
    · next hne =>
      rw [nullary_of_ne (fun hnil => hne (congrArg List.length hnil))]
      exact hplain (says_wrongArity (by decide))
    · next hnil =>
      rw [List.length_eq_zero_iff.mp (not_not.mp hnil)]
      exact hplain (says_simple (by decide))
  simp only [if_neg h]
  clear h
  by_cases h : name.bytes = ascii "ECHO"
  · simp only [if_pos h]
    unfold commandEcho
    split
    · next text => exact hplain (says_bulk (hlen text (by simp)))
    · next hne =>
      rw [unary_of_ne hne]
      exact hplain (says_wrongArity (by decide))
  simp only [if_neg h]
  clear h
  by_cases h : name.bytes = ascii "HELP"
  · simp only [if_pos h]
    unfold commandHelp
    split
    · next hne =>
      rw [nullary_of_ne (fun hnil => hne (congrArg List.length hnil))]
      exact hplain (says_wrongArity (by decide))
    · next hnil =>
      rw [List.length_eq_zero_iff.mp (not_not.mp hnil)]
      exact hplain (says_bulk length_helpText_le)
  simp only [if_neg h]
  clear h
  by_cases h : name.bytes = ascii "SET"
  · simp only [if_pos h]
    exact servesCommand_store hsubs (commandSet_serves hm hle s.pubsub hlen rfl)
  simp only [if_neg h]
  clear h
  by_cases h : name.bytes = ascii "GET"
  · simp only [if_pos h]
    exact servesCommand_store hsubs (commandGet_serves hm hle hstore rfl)
  simp only [if_neg h]
  clear h
  by_cases h : name.bytes = ascii "DEL"
  · simp only [if_pos h]
    exact servesCommand_store hsubs (commandDel_serves hm hle rfl)
  simp only [if_neg h]
  clear h
  by_cases h : name.bytes = ascii "EXISTS"
  · simp only [if_pos h]
    exact servesCommand_store hsubs (commandExists_serves hm hle rfl)
  simp only [if_neg h]
  clear h
  by_cases h : name.bytes = ascii "SETEX"
  · simp only [if_pos h]
    exact servesCommand_store hsubs (commandSetex_serves hm hle s.pubsub hlen rfl)
  simp only [if_neg h]
  clear h
  by_cases h : name.bytes = ascii "EXPIRE"
  · simp only [if_pos h]
    exact servesCommand_store hsubs (commandExpire_serves hm hle rfl)
  simp only [if_neg h]
  clear h
  by_cases h : name.bytes = ascii "TTL"
  · simp only [if_pos h]
    exact servesCommand_store hsubs (commandTtl_serves hm hle hstore rfl)
  simp only [if_neg h]
  clear h
  by_cases h : name.bytes = ascii "SUBSCRIBE"
  · simp only [if_pos h]
    exact servesCommand_registry hm hle (commandSubscribe_serves hsubs s.store rfl)
  simp only [if_neg h]
  clear h
  by_cases h : name.bytes = ascii "UNSUBSCRIBE"
  · simp only [if_pos h]
    exact servesCommand_registry hm hle (commandUnsubscribe_serves hsubs rfl)
  simp only [if_neg h, if_neg hname]
  clear h
  by_cases h : name.bytes = ascii "INFO"
  · simp only [if_pos h]
    split
    · next hne =>
      rw [nullary_of_ne (fun hnil => hne (congrArg List.length hnil))]
      exact hplain (says_wrongArity (by decide))
    · next hnil =>
      rw [List.length_eq_zero_iff.mp (not_not.mp hnil)]
      have hinfo : ServesCommand s i env m subs (.inr .census) _ := formatInfo_serves hm hle hsubs
      generalize formatInfo s blank ksResponseCap env = r at *
      obtain ⟨store, response, length⟩ := r
      exact hinfo
  simp only [if_neg h]
  exact hplain (says_error (by decide))

end

end Kessel
