import CppExamples.AsyncUdp.Replies

/-!
# The length of a reply

`handle_receive_from` records in `data_` how many bytes the body of a reply has.
It does so if the reply is longer than a header, and otherwise leaves `data_` as
it is, so that the length is then that of an earlier reply.  The length is right
in the whole of a run exactly if in that run no reply without a body comes after
one that has a body.
-/

namespace CppExamples.AsyncUdp

open CppExamples.Lib

namespace Client

/-- The byte count that `handle_receive_from` gets, if the event runs it without an
error. -/
def replyCount (w : Client) : ClientEvent → Option Nat
  | .receiveDone i false => w.receives[i]?.map fun r ↦ (r.stored.elim [] Datagram.bytes).length
  | _ => none

/-- These counts in the course of a run. -/
def replyCounts (w : Client) : List ClientEvent → List Nat
  | [] => []
  | e :: es => match w.step e with
      | none => []
      | some w' => (w.replyCount e).toList ++ w'.replyCounts es

/-- After every reply of a run the length is that of the body of this reply. -/
def DescribesReplies (w : Client) : List ClientEvent → Prop
  | [] => True
  | e :: es => ∀ w', w.step e = some w' →
      (∀ n ∈ w.replyCount e, w'.data.bodyLength = n - headerLength) ∧ w'.DescribesReplies es

/-- Every datagram that waits for its handler has been stored whole. -/
def StoresWhole (w : Client) : Prop := ∀ d, w.Waiting d → d.bytes.length ≤ Message.maxLength

variable {v w w' : Client}

namespace StoresWhole

theorem arrive (h : w.StoresWhole) (i : Nat) (d : Datagram) : (w.arrive i d).StoresWhole := by
  by_cases hc : w.canStore i d = true
  · intro e he
    rcases (waiting_arrive_iff hc).mp he with rfl | he
    · exact (canStore_iff.mp hc).2.1
    · exact h e he
  · rwa [arrive_of_not_canStore hc]

theorem arriveAll (h : w.StoresWhole) (ds : List (Nat × Datagram)) :
    (w.arriveAll ds).StoresWhole :=
  arriveAll_induction h fun _ hv a _ ↦ hv.arrive a.1 a.2

theorem recvMessage (h : w.StoresWhole) : w.recvMessage.StoresWhole := fun d hd ↦
  h d (waiting_recvMessage.mp hd)

theorem eraseIdx (h : w.StoresWhole) (i : Nat) :
    StoresWhole { w with receives := w.receives.eraseIdx i } := by
  rintro d ⟨r, hr, hd⟩
  exact h d ⟨r, List.mem_of_mem_eraseIdx hr, hd⟩

theorem handleReceiveFrom (h : w.StoresWhole) (error : Bool) (n : Nat) :
    (w.handleReceiveFrom error n).StoresWhole := by
  unfold Client.handleReceiveFrom
  split
  · dsimp only
    split <;> exact h
  · exact h

theorem step (h : w.StoresWhole) {e : ClientEvent} (hs : w.step e = some w') :
    w'.StoresWhole := by
  cases turn_of_step hs with
  | sendMessage m => exact h
  | doWrite hp hq => exact h
  | sendError hc => exact h
  | @sentLast i c during msg hc hq v hv =>
      have hv : v.StoresWhole := by
        rw [hv]
        exact h
      exact hv.recvMessage.arriveAll during
  | @sentNext i c during msg front queue hc hq v hv =>
      have hv : v.StoresWhole := by
        rw [hv]
        exact h
      exact hv.recvMessage.arriveAll during
  | arrive i d => exact h.arrive i d
  | receiveError hr => exact h.eraseIdx _
  | received hr => exact (h.eraseIdx _).handleReceiveFrom _ _

end StoresWhole

theorem storesWhole_udpClient {server : Endpoint}
    {uninit : Buffer (headerLength + maxBodyLength)} : (udpClient server uninit).StoresWhole := by
  rintro d ⟨r, hr, -⟩
  cases hr

/-- A datagram only puts bytes into `data_`. -/
theorem bodyLength_arriveAll (w : Client) (ds : List (Nat × Datagram)) :
    (w.arriveAll ds).data.bodyLength = w.data.bodyLength := by
  apply arriveAll_induction (P := fun v ↦ v.data.bodyLength = w.data.bodyLength) rfl
  rintro v hv a -
  rw [← hv]
  unfold arrive
  split <;> rfl

/-- What `handle_receive_from` makes of the length. -/
theorem bodyLength_handleReceiveFrom {n : Nat} (hn : n ≤ Message.maxLength) :
    (w.handleReceiveFrom false n).data.bodyLength =
      if headerLength < n then n - headerLength else w.data.bodyLength := by
  have hmin : min (n - headerLength) maxBodyLength = n - headerLength := by
    rw [Message.maxLength] at hn
    omega
  simp only [handleReceiveFrom, Bool.not_false, if_true, gt_iff_lt]
  split
  · exact (Message.setBodyLength_bodyLength _ _).trans hmin
  · rfl

/-- **What a step makes of the length.**  Only a reply that is longer than a header
changes it. -/
theorem bodyLength_step (h : w.StoresWhole) {e : ClientEvent} (hs : w.step e = some w') :
    w'.data.bodyLength = match w.replyCount e with
      | some n => if headerLength < n then n - headerLength else w.data.bodyLength
      | none => w.data.bodyLength := by
  cases turn_of_step hs with
  | sendMessage m => rfl
  | doWrite hp hq => rfl
  | sendError hc => rfl
  | @sentLast i c during msg hc hq v hv =>
      refine (bodyLength_arriveAll v.recvMessage during).trans ?_
      rw [hv]
      rfl
  | @sentNext i c during msg front queue hc hq v hv =>
      refine (bodyLength_arriveAll v.recvMessage during).trans ?_
      rw [hv]
      rfl
  | arrive i d => exact bodyLength_arriveAll w [(i, d)]
  | receiveError hr => rfl
  | @received i r hr =>
      have hn : (r.stored.elim [] Datagram.bytes).length ≤ Message.maxLength := by
        cases hd : r.stored with
        | none => exact Nat.zero_le _
        | some d => exact h d ⟨r, List.mem_of_getElem? hr, hd⟩
      rw [bodyLength_handleReceiveFrom hn]
      simp [replyCount, hr]

/-- The counts of two replies in a run: the second has a body if the first has
one. -/
def KeepsBody (m n : Nat) : Prop := headerLength < m → headerLength < n

/-- The counts `ns` come after a reply whose body had the length `b`. -/
def Follow (b : Nat) (ns : List Nat) : Prop :=
  ns.Pairwise KeepsBody ∧ (b ≠ 0 → ∀ n ∈ ns, headerLength < n)

/-- A reply with a body may come after anything. -/
theorem follow_cons_of_long {b n : Nat} {ns : List Nat} (hlong : headerLength < n) :
    Follow b (n :: ns) ↔ Follow (n - headerLength) ns := by
  have hpos : n - headerLength ≠ 0 := Nat.sub_ne_zero_of_lt hlong
  rw [Follow, Follow, List.pairwise_cons, List.forall_mem_cons]
  constructor
  · rintro ⟨⟨hlater, hpw⟩, -⟩
    exact ⟨hpw, fun _ m hm ↦ hlater m hm hlong⟩
  · rintro ⟨hpw, hlater⟩
    exact ⟨⟨fun m hm _ ↦ hlater hpos m hm, hpw⟩, fun _ ↦ ⟨hlong, hlater hpos⟩⟩

/-- A reply without one only comes after others of the kind. -/
theorem follow_cons_of_short {b n : Nat} {ns : List Nat} (hshort : ¬ headerLength < n) :
    Follow b (n :: ns) ↔ b = 0 ∧ Follow b ns := by
  rw [Follow, Follow, List.pairwise_cons, List.forall_mem_cons]
  constructor
  · rintro ⟨⟨-, hpw⟩, hne⟩
    have h0 : b = 0 := by
      by_contra hb
      exact hshort (hne hb).1
    exact ⟨h0, hpw, fun hb ↦ absurd h0 hb⟩
  · rintro ⟨h0, hpw, -⟩
    exact ⟨⟨fun m _ hn ↦ absurd hn hshort, hpw⟩, fun hb ↦ absurd h0 hb⟩

/-- From any state on the length is right as long as the replies follow on the
length that is there. -/
theorem describesReplies_iff_follow {server : Endpoint} {es : List ClientEvent}
    (h : w.StoresWhole) (hx : (system server).exec (fun _ _ ↦ true) w es = some w') :
    w.DescribesReplies es ↔ Follow w.data.bodyLength (w.replyCounts es) := by
  induction es generalizing w with
  | nil => simp [DescribesReplies, replyCounts, Follow]
  | cons e es ih =>
      obtain ⟨-, -, t, ht, hx⟩ := System.exec_cons_iff.mp hx
      replace ht : w.step e = some t := ht
      have hrest := ih (h.step ht) hx
      have hlen := bodyLength_step h ht
      have hdesc : w.DescribesReplies (e :: es) ↔
          (∀ n ∈ w.replyCount e, t.data.bodyLength = n - headerLength) ∧
            t.DescribesReplies es := by
        simp [DescribesReplies, ht]
      have hcounts : w.replyCounts (e :: es) =
          (w.replyCount e).toList ++ t.replyCounts es := by
        simp [replyCounts, ht]
      rw [hdesc, hcounts, hrest]
      cases hn : w.replyCount e with
      | none =>
          rw [hn] at hlen
          simp [hlen]
      | some n =>
          rw [hn] at hlen
          dsimp only at hlen
          simp only [Option.mem_def, Option.some.injEq, forall_eq', Option.toList_some,
            List.singleton_append]
          by_cases hlong : headerLength < n
          · rw [hlen, if_pos hlong, follow_cons_of_long hlong]
            exact and_iff_right rfl
          · have hzero : n - headerLength = 0 := Nat.sub_eq_zero_of_le (Nat.le_of_not_lt hlong)
            rw [hlen, if_neg hlong, hzero, follow_cons_of_short hlong]

/-- **The recorded length is that of the latest reply** in all of a run exactly if
every reply behind one with a body has a body too. -/
theorem describesReplies_iff {server : Endpoint}
    {uninit : Buffer (headerLength + maxBodyLength)} {es : List ClientEvent}
    (hx : (system server).exec (fun _ _ ↦ true) (udpClient server uninit) es = some w) :
    (udpClient server uninit).DescribesReplies es ↔
      ((udpClient server uninit).replyCounts es).Pairwise KeepsBody := by
  rw [describesReplies_iff_follow storesWhole_udpClient hx]
  exact and_iff_left fun hne ↦ absurd rfl hne

/-- Two messages are sent, and two replies received and handled one at a time. -/
def twoHandled (first second : Datagram) : List ClientEvent :=
  [.sendMessage (headerOnly 65), .doWrite, .sendDone 0 false [], .arrive 0 first,
    .receiveDone 0 false, .sendMessage (headerOnly 66), .doWrite, .sendDone 0 false [],
    .arrive 0 second, .receiveDone 0 false]

/-- A reply of a header and three more bytes. -/
def longReply : Datagram := ⟨localServer, List.replicate 25 65⟩

/-- A reply of one byte. -/
def shortReply : Datagram := ⟨localServer, [66]⟩

theorem shortThenLong_described :
    freshClient.DescribesReplies (twoHandled shortReply longReply) := by
  have hrun : (system localServer).exec (fun _ _ ↦ true) freshClient
      (twoHandled shortReply longReply) = some _ := rfl
  have hcounts : freshClient.replyCounts (twoHandled shortReply longReply) = [1, 25] := rfl
  refine (describesReplies_iff hrun).mpr ?_
  change (freshClient.replyCounts _).Pairwise KeepsBody
  rw [hcounts]
  simp [KeepsBody, headerLength]

/-- After the short reply the length is that of the long one. -/
theorem longThenShort_stale : ∃ w,
    (system localServer).exec (fun _ _ ↦ true) freshClient (twoHandled longReply shortReply) =
        some w ∧
      freshClient.replyCounts (twoHandled longReply shortReply) = [25, 1] ∧
      w.data.bodyLength = 3 ∧
      ¬ freshClient.DescribesReplies (twoHandled longReply shortReply) := by
  have hrun : (system localServer).exec (fun _ _ ↦ true) freshClient
      (twoHandled longReply shortReply) = some _ := rfl
  have hcounts : freshClient.replyCounts (twoHandled longReply shortReply) = [25, 1] := rfl
  refine ⟨_, hrun, hcounts, rfl, fun hdesc ↦ ?_⟩
  have hpw : (freshClient.replyCounts _).Pairwise KeepsBody :=
    ((describesReplies_iff_follow storesWhole_udpClient hrun).mp hdesc).1
  rw [hcounts] at hpw
  simp [KeepsBody, headerLength] at hpw

end Client

end CppExamples.AsyncUdp
