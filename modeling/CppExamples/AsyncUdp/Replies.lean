import CppExamples.AsyncUdp.Destination

/-!
# What the client shows

`handle_receive_from` shows the front of `data_`, which every receive of the
client stores its datagram into.  A datagram is still there when its handler
runs as long as every datagram stored in the meantime agrees with it on the
bytes both have (`Undisturbed`).  No weaker condition on the arrivals will do:
`step_intact_iff` is an equivalence at every step, so that the first arrival
that violates the condition leaves a handler that will show something else.
-/

namespace CppExamples.AsyncUdp

open CppExamples.Lib

/-- One of the two is an initial part of the other. -/
def Agree (a b : List UInt8) : Prop := a <+: b ∨ b <+: a

instance (a b : List UInt8) : Decidable (Agree a b) :=
  inferInstanceAs (Decidable (a <+: b ∨ b <+: a))

namespace Client

/-- A receive has stored the datagram `d`, and its handler has not run yet. -/
def Waiting (w : Client) (d : Datagram) : Prop := ∃ r ∈ w.receives, r.stored = some d

/-- Every datagram that waits for its handler is in front of the buffer. -/
def Intact (w : Client) : Prop :=
  ∀ d, w.Waiting d → w.data.data.bytes.take d.bytes.length = d.bytes

/-- Whenever `handle_receive_from` can run without an error for a receive, what
it shows is the datagram that completed it. -/
def ShowsReceived (w : Client) : Prop :=
  ∀ i, w.enabled (.receiveDone i false) = true →
    ∃ r d, w.receives[i]? = some r ∧ r.stored = some d ∧
      w.data.data.bytes.take d.bytes.length = d.bytes ∧
      ∃ w', w.step (.receiveDone i false) = some w' ∧
        w'.console = w.console ++ [.handleReceiveFrom, .recvData (showStr d.bytes)]

/-- None of the datagrams that get stored, one after the other, disagrees with
one that is already waiting. -/
def NoClash (w : Client) : List (Nat × Datagram) → Prop
  | [] => True
  | a :: ds => (w.canStore a.1 a.2 = true → ∀ d, w.Waiting d → Agree a.2.bytes d.bytes) ∧
      (w.arrive a.1 a.2).NoClash ds

end Client

/-- No datagram is stored over another one whose handler has not run yet,
unless the two agree on the bytes both have. -/
def Undisturbed (w : Client) : ClientEvent → Prop
  | .arrive i d => w.NoClash [(i, d)]
  | .sendDone _ false during => w.recvMessage.NoClash during
  | _ => True

namespace Client

variable {v w : Client}

/-! ## Arrivals -/

/-- When a datagram can be stored. -/
theorem canStore_iff {i : Nat} {d : Datagram} :
    w.canStore i d = true ↔ w.socketOpen = true ∧ d.bytes.length ≤ Message.maxLength ∧
      ∃ r, w.receives[i]? = some r ∧ r.opened = true ∧ r.stored = none := by
  simp [canStore, and_assoc, Option.any_eq_true]

/-- After an arrival the new datagram waits, and those that waited before. -/
theorem waiting_arrive_iff {i : Nat} {d e : Datagram} (hc : w.canStore i d = true) :
    (w.arrive i d).Waiting e ↔ e = d ∨ w.Waiting e := by
  obtain ⟨-, -, r, hr, -, hn⟩ := canStore_iff.mp hc
  simp only [Waiting, arrive, hc, if_true, List.mem_iff_getElem?, List.getElem?_modify]
  constructor
  · rintro ⟨r', ⟨j, hj⟩, he⟩
    by_cases hij : i = j
    · subst hij
      simp only [hr, if_true, Option.map_eq_map, Option.map_some, Option.some.injEq] at hj
      subst hj
      exact .inl (Option.some.inj he).symm
    · simp only [hij, if_false, Option.map_eq_map, Option.map_id_fun', id_eq] at hj
      exact .inr ⟨r', ⟨j, hj⟩, he⟩
  · rintro (rfl | ⟨r', ⟨j, hj⟩, he⟩)
    · exact ⟨_, ⟨i, by simp [hr]; rfl⟩, rfl⟩
    · refine ⟨r', ⟨j, ?_⟩, he⟩
      have hij : i ≠ j := by
        rintro rfl
        rw [hr, Option.some.injEq] at hj
        subst hj
        rw [hn] at he
        cases he
      simp [hij, hj]

/-- What cannot be stored changes nothing. -/
theorem arrive_of_not_canStore {i : Nat} {d : Datagram} (hc : ¬ w.canStore i d = true) :
    w.arrive i d = w := if_neg hc

/-- **What an arrival does to the datagrams that wait.**  They are all intact
afterwards exactly if the new one agrees with each of them. -/
theorem intact_arrive_iff {i : Nat} {d : Datagram} (h : w.Intact) (hc : w.canStore i d = true) :
    (w.arrive i d).Intact ↔ ∀ e, w.Waiting e → Agree d.bytes e.bytes := by
  have hlen : d.bytes.length ≤ Message.maxLength := (canStore_iff.mp hc).2.1
  have hdata : (w.arrive i d).data.data = w.data.data.store d.bytes := by
    rw [arrive, if_pos hc]
  constructor
  · intro ha e he
    have := ha e ((waiting_arrive_iff hc).mpr (.inr he))
    rw [hdata] at this
    exact (Buffer.take_store_eq_iff hlen (h e he)).mp this
  · intro ha e he
    rw [hdata]
    rcases (waiting_arrive_iff hc).mp he with rfl | he
    · exact Buffer.take_store_length hlen
    · exact (Buffer.take_store_eq_iff hlen (h e he)).mpr (ha e he)

/-- Arrivals only add waiting datagrams. -/
theorem Waiting.arriveAll {d : Datagram} (hd : w.Waiting d) (ds : List (Nat × Datagram)) :
    (w.arriveAll ds).Waiting d := by
  apply arriveAll_induction (P := fun v ↦ v.Waiting d) hd
  rintro v hv a -
  by_cases hc : v.canStore a.1 a.2 = true
  · exact (waiting_arrive_iff hc).mpr (.inr hv)
  · rwa [arrive_of_not_canStore hc]

/-- Two datagrams that are both in front of the buffer agree. -/
theorem Intact.agree (h : w.Intact) {d e : Datagram} (hd : w.Waiting d) (he : w.Waiting e) :
    Agree d.bytes e.bytes := by
  have pd : d.bytes <+: w.data.data.bytes := List.prefix_iff_eq_take.mpr (h d hd).symm
  have pe : e.bytes <+: w.data.data.bytes := List.prefix_iff_eq_take.mpr (h e he).symm
  exact List.prefix_or_prefix_of_prefix pd pe

/-- A clash is never repaired by what is stored after it: the two datagrams
both wait until the end, and cannot both be in front of the buffer. -/
theorem intact_arriveAll_iff (h : w.Intact) (ds : List (Nat × Datagram)) :
    (w.arriveAll ds).Intact ↔ w.NoClash ds := by
  induction ds generalizing w with
  | nil => exact iff_of_true h trivial
  | cons a ds ih =>
      change ((w.arrive a.1 a.2).arriveAll ds).Intact ↔ _ ∧ _
      by_cases hc : w.canStore a.1 a.2 = true
      · constructor
        · intro hall
          have hagree : ∀ d, w.Waiting d → Agree a.2.bytes d.bytes := fun d hd ↦
            hall.agree (((waiting_arrive_iff hc).mpr (.inl rfl)).arriveAll ds)
              (((waiting_arrive_iff hc).mpr (.inr hd)).arriveAll ds)
          exact ⟨fun _ ↦ hagree, (ih ((intact_arrive_iff h hc).mpr hagree)).mp hall⟩
        · rintro ⟨hagree, hrest⟩
          exact (ih ((intact_arrive_iff h hc).mpr (hagree hc))).mpr hrest
      · rw [arrive_of_not_canStore hc, ih h]
        exact ⟨fun hrest ↦ ⟨fun hc' ↦ absurd hc' hc, hrest⟩, And.right⟩

/-! ## The handlers -/

/-- Two clients with the same buffer and the same receives. -/
structure SameReceives (v w : Client) : Prop where
  data : v.data.data = w.data.data
  receives : v.receives = w.receives
  socketOpen : v.socketOpen = w.socketOpen

namespace SameReceives

theorem waiting_iff (h : SameReceives v w) {d : Datagram} : v.Waiting d ↔ w.Waiting d := by
  rw [Waiting, Waiting, h.receives]

theorem intact_iff (h : SameReceives v w) : v.Intact ↔ w.Intact := by
  simp only [Intact, h.waiting_iff, h.data]

theorem canStore_eq (h : SameReceives v w) (i : Nat) (d : Datagram) :
    v.canStore i d = w.canStore i d := by
  rw [canStore, canStore, h.receives, h.socketOpen]

theorem arrive (h : SameReceives v w) (i : Nat) (d : Datagram) :
    SameReceives (v.arrive i d) (w.arrive i d) := by
  by_cases hc : w.canStore i d = true
  · rw [Client.arrive, Client.arrive, if_pos hc, if_pos (h.canStore_eq i d ▸ hc)]
    exact ⟨by rw [h.data], by rw [h.receives], h.socketOpen⟩
  · rwa [arrive_of_not_canStore hc, arrive_of_not_canStore (h.canStore_eq i d ▸ hc)]

theorem arriveAll (h : SameReceives v w) (ds : List (Nat × Datagram)) :
    SameReceives (v.arriveAll ds) (w.arriveAll ds) := by
  induction ds generalizing v w with
  | nil => exact h
  | cons a ds ih => exact ih (h.arrive a.1 a.2)

end SameReceives

/-- A receive that has just been started holds nothing. -/
theorem waiting_recvMessage {d : Datagram} : w.recvMessage.Waiting d ↔ w.Waiting d := by
  simp [Waiting, recvMessage, or_and_right, exists_or]

theorem Intact.handleReceiveFrom (h : w.Intact) (error : Bool) (n : Nat) :
    (w.handleReceiveFrom error n).Intact := by
  unfold Client.handleReceiveFrom
  split
  · dsimp only
    split <;> exact h
  · exact h

/-- **What a step does to the datagrams that wait.**  They stay intact exactly
along the undisturbed steps. -/
theorem step_intact_iff (h : w.Intact) {e : ClientEvent} {w' : Client} (hs : w.step e = some w') :
    w'.Intact ↔ Undisturbed w e := by
  have hr : w.recvMessage.Intact := fun d hd ↦ h d (waiting_recvMessage.mp hd)
  cases turn_of_step hs with
  | sendMessage m => exact iff_of_true h trivial
  | doWrite hp hq => exact iff_of_true h trivial
  | sendError hc => exact iff_of_true h trivial
  | @sentLast i c during msg hc hq v hv =>
      have hsame : SameReceives v.recvMessage w.recvMessage := by
        rw [hv]
        exact ⟨rfl, rfl, rfl⟩
      calc (v.recvMessage.arriveAll during).Intact
          ↔ (w.recvMessage.arriveAll during).Intact := (hsame.arriveAll during).intact_iff
        _ ↔ w.recvMessage.NoClash during := intact_arriveAll_iff hr during
  | @sentNext i c during msg front queue hc hq v hv =>
      have hsame : SameReceives v.recvMessage w.recvMessage := by
        rw [hv]
        exact ⟨rfl, rfl, rfl⟩
      calc ((v.recvMessage.arriveAll during).asyncSendTo front).Intact
          ↔ (v.recvMessage.arriveAll during).Intact := Iff.rfl
        _ ↔ (w.recvMessage.arriveAll during).Intact := (hsame.arriveAll during).intact_iff
        _ ↔ w.recvMessage.NoClash during := intact_arriveAll_iff hr during
  | arrive i d => exact intact_arriveAll_iff h [(i, d)]
  | receiveError hr =>
      refine iff_of_true ?_ trivial
      rintro d ⟨r, hr, hd⟩
      exact h d ⟨r, List.mem_of_mem_eraseIdx hr, hd⟩
  | @received i r hr =>
      have hv : Intact { w with receives := w.receives.eraseIdx i } := by
        rintro d ⟨r, hr, hd⟩
        exact h d ⟨r, List.mem_of_mem_eraseIdx hr, hd⟩
      exact iff_of_true (hv.handleReceiveFrom _ _) trivial

/-- What waits is intact along every undisturbed run. -/
theorem intact_of_undisturbed {server : Endpoint}
    (h : (system server).Reachable Undisturbed w) : w.Intact := by
  refine h.invariant (I := Intact) ?_ fun s e s' _ hi _ hg hs ↦ (step_intact_iff hi hs).mpr hg
  rintro _ ⟨uninit, rfl⟩ d ⟨r, hr, -⟩
  cases hr

/-- The handlers show the right bytes exactly if those are still in the buffer. -/
theorem showsReceived_iff : w.ShowsReceived ↔ w.Intact := by
  constructor
  · intro h d ⟨r, hr, hd⟩
    obtain ⟨i, hi⟩ := List.mem_iff_getElem?.mp hr
    obtain ⟨r', d', hr', hd', htake, -⟩ := h i (by simp [enabled, hi, hd])
    obtain rfl : r = r' := Option.some.inj (hi.symm.trans hr')
    obtain rfl : d = d' := Option.some.inj (hd.symm.trans hd')
    exact htake
  · intro h i he
    obtain ⟨r, hr, hs⟩ := (Option.any_eq_true _ _).mp he
    obtain ⟨d, hd⟩ := Option.isSome_iff_exists.mp (by simpa using hs)
    have hi := h d ⟨r, List.mem_of_getElem? hr, hd⟩
    refine ⟨r, d, hr, hd, hi, ?_⟩
    simp only [step, hr, hd, handleReceiveFrom, bytesTransferred, Bool.not_false, if_true,
      Option.elim_some, Bool.false_eq_true, if_false]
    refine ⟨_, rfl, ?_⟩
    split <;> simp [print, hi]

/-- **The client shows what it received, exactly along the undisturbed runs**:
in every state of such a run the handlers show the datagrams that completed
their receives, and the next step keeps this up if and only if it is
undisturbed too. -/
theorem showsReceived_of_undisturbed {server : Endpoint}
    (h : (system server).Reachable Undisturbed w) :
    w.ShowsReceived ∧
      ∀ e w', w.step e = some w' → (w'.ShowsReceived ↔ Undisturbed w e) := by
  have hi := intact_of_undisturbed h
  exact ⟨showsReceived_iff.mpr hi, fun e w' hs ↦ showsReceived_iff.trans (step_intact_iff hi hs)⟩

/-! ## Two replies -/

/-- Two messages sent one after the other, and the reply `first` and the reply
`second` received before the first one is handled. -/
def twoReplies (first second : List UInt8) : List ClientEvent :=
  [.sendMessage (headerOnly 65), .doWrite, .sendDone 0 false [],
    .sendMessage (headerOnly 66), .doWrite, .sendDone 0 false [],
    .arrive 0 ⟨localServer, first⟩, .arrive 1 ⟨localServer, second⟩]

/-- A test for undisturbed steps: what is stored while a datagram waits agrees with
it, and nothing is stored inside a handler. -/
def undisturbedTest (w : Client) : ClientEvent → Bool
  | .arrive _ d => w.receives.all fun r ↦ r.stored.all fun e ↦ Agree d.bytes e.bytes
  | .sendDone _ _ during => during.isEmpty
  | _ => true

theorem undisturbed_of_test (w : Client) (e : ClientEvent) (h : undisturbedTest w e = true) :
    Undisturbed w e := by
  cases e with
  | arrive i d =>
      refine ⟨fun _ e ⟨r, hr, he⟩ ↦ ?_, trivial⟩
      have := List.all_eq_true.mp h r hr
      simpa [he] using this
  | sendDone i error during =>
      cases error with
      | true => trivial
      | false =>
          obtain rfl : during = [] := List.isEmpty_iff.mp h
          trivial
  | sendMessage m => trivial
  | doWrite => trivial
  | receiveDone i error => trivial

/-- The second reply begins with the first one, and both are shown. -/
theorem agreeingReplies_shown : ∃ w : Client, w.enabled (.receiveDone 0 false) = true ∧
    w.enabled (.receiveDone 1 false) = true ∧ w.ShowsReceived := by
  obtain ⟨w, hw, he, he'⟩ : ∃ w, (system localServer).Reachable Undisturbed w ∧
      w.enabled (.receiveDone 0 false) = true ∧ w.enabled (.receiveDone 1 false) = true :=
    System.reachable_of_exec undisturbed_of_test freshClient_reachable
      (twoReplies [65] [65, 66]) (by decide)
  exact ⟨w, he, he', (showsReceived_of_undisturbed hw).1⟩

/-- The second reply lies over the first one when that is handled. -/
theorem twoReplies_first_lost :
    ¬ ∀ (server : Endpoint) (w : Client), (system server).Reachable Always w →
      w.ShowsReceived := by
  intro h
  obtain ⟨w, hw, hr, hd⟩ : ∃ w, (system localServer).Reachable Always w ∧
      w.receives = [⟨true, some ⟨localServer, [65]⟩⟩, ⟨true, some ⟨localServer, [66]⟩⟩] ∧
        w.data.data.bytes.take 1 = [66] :=
    System.always_of_exec freshClient_reachable (twoReplies [65] [66]) rfl
  have hwait : w.Waiting ⟨localServer, [65]⟩ :=
    ⟨⟨true, some ⟨localServer, [65]⟩⟩, by rw [hr]; exact List.mem_cons_self, rfl⟩
  have := showsReceived_iff.mp (h localServer w hw) _ hwait
  rw [List.length_singleton, hd] at this
  cases this

end Client

end CppExamples.AsyncUdp
