import CppExamples.Lib.Loop
import CppExamples.Lib.StringArray
import CppExamples.WinSock.Calls

/-!
# The HTTP client

`TCP-Server.cpp`, which is a client in spite of its name: send a request, and
collect the response until `recv` returns zero.

Each chunk is received into the front of `szTemp` and then appended to `szBuffer`
as a C string.  Nobody stores the zero at the end of the string: it has to be in
`szTemp` already, right behind the chunk, and what comes before it there is
appended as well.  Neither is there a zero at the start of `szBuffer`.  And `recv`
returns `SOCKET_ERROR`, which is not zero, if the connection fails.
-/

namespace CppExamples.WinSock.HttpClient

open CppExamples.Lib

/-- The size of `szBuffer`, and of `szTemp`. -/
def size : Nat := 4096

/-- The two arrays, neither of which is initialised. -/
structure State where
  szBuffer : Buffer size
  szTemp : Buffer size

/-- The condition and the body of the loop. -/
def body (w : State) (r : Recv) : Option (Pass State Unit) :=
  let szTemp := w.szTemp.store r.bytes
  if r.result ≠ 0 then (w.szBuffer.strcat szTemp).map fun szBuffer ↦ .again ⟨szBuffer, szTemp⟩
  else some (.left { w with szTemp := szTemp } ())

/-- `main`, from the loop on: what it prints; `none` if something is undefined, or
the loop does not end. -/
def main (w : State) (rs : List Recv) : Option (List UInt8) :=
  match loop body w rs with
  | some (.left w ()) => cstrIn w.szBuffer.bytes
  | _ => none

/-! ## The chunks -/

/-- What is in `szTemp` after each of the chunks. -/
def temps (t : Buffer size) : List (List UInt8) → List (Buffer size)
  | [] => []
  | c :: cs => t.store c :: temps (t.store c) cs

/-- What the chunks add to `szBuffer`. -/
def text (t : Buffer size) (cs : List (List UInt8)) : List UInt8 :=
  (temps t cs).flatMap fun u ↦ cstr u.bytes

/-- Every chunk finds a string in `szBuffer`, leaves one in `szTemp`, and there is
room for all of them. -/
structure Fits (b t : Buffer size) (cs : List (List UInt8)) : Prop where
  head : 0 ∈ b.bytes
  tails : ∀ u ∈ temps t cs, 0 ∈ u.bytes
  room : (cstr b.bytes).length + (text t cs).length < size

variable {b t : Buffer size} {w : State} {c : List UInt8} {cs : List (List UInt8)}

/-- The pass of a chunk. -/
theorem body_data (hc : c ≠ []) : body w (.data c) =
    (w.szBuffer.strcat (w.szTemp.store c)).map fun b ↦ .again ⟨b, w.szTemp.store c⟩ := by
  have hresult : (Recv.data c).result ≠ 0 := by
    rw [Recv.result, Ne, Int.natCast_eq_zero, List.length_eq_zero_iff]
    exact hc
  rw [body, if_pos hresult]
  rfl

/-- **The loop over chunks** goes on as long as the chunks fit, and appends their
strings. -/
theorem loop_data (hcs : ∀ c ∈ cs, c ≠ []) {p : Pass State Unit}
    (hp : loop body ⟨b, t⟩ (cs.map .data) = some p) :
    ∃ w, p = .again w ∧ cstr w.szBuffer.bytes = cstr b.bytes ++ text t cs ∧
      (0 ∈ b.bytes ∨ cs ≠ [] → 0 ∈ w.szBuffer.bytes) ∧ (cs ≠ [] → Fits b t cs) := by
  induction cs generalizing b t with
  | nil =>
      cases hp
      refine ⟨_, rfl, (List.append_nil _).symm, fun h ↦ h.resolve_right fun hne ↦ hne rfl, ?_⟩
      exact fun hne ↦ absurd rfl hne
  | cons c cs ih =>
      rw [List.forall_mem_cons] at hcs
      rw [List.map_cons, loop, body_data hcs.1] at hp
      cases hcat : b.strcat (t.store c) with
      | none =>
          rw [hcat] at hp
          cases hp
      | some b' =>
          rw [hcat] at hp
          obtain ⟨hcstr, hmem⟩ := Buffer.strcat_spec hcat
          obtain ⟨w, rfl, htext, hzero, hfits⟩ := ih hcs.2 hp
          have hcat' := Buffer.fits_of_strcat hcat
          have htext' : cstr w.szBuffer.bytes = cstr b.bytes ++ text t (c :: cs) := by
            rw [htext, hcstr, List.append_assoc]
            rfl
          refine ⟨w, rfl, htext', fun _ ↦ hzero (.inl hmem), fun _ ↦ ?_⟩
          refine ⟨hcat'.head, ?_, ?_⟩
          · intro u hu
            rcases List.mem_cons.mp hu with rfl | hu
            · exact hcat'.tail
            · refine (hfits ?_).tails u hu
              rintro rfl
              cases hu
          · rw [← List.length_append, ← htext']
            exact (length_cstr_lt (hzero (.inl hmem))).trans_eq (Buffer.length_bytes _)

/-- Chunks that fit are no problem. -/
theorem loop_of_fits (hcs : ∀ c ∈ cs, c ≠ []) (h : cs ≠ [] → Fits b t cs) :
    ∃ w, loop body ⟨b, t⟩ (cs.map .data) = some (.again w) := by
  induction cs generalizing b t with
  | nil => exact ⟨_, rfl⟩
  | cons c cs ih =>
      rw [List.forall_mem_cons] at hcs
      obtain ⟨hhead, htails, hroom⟩ := h (List.cons_ne_nil c cs)
      have hlen : (text t (c :: cs)).length =
          (cstr (t.store c).bytes).length + (text (t.store c) cs).length :=
        List.length_append
      have hcat : b.StrcatFits (t.store c) := by
        refine ⟨hhead, htails _ (List.mem_cons_self ..), ?_⟩
        omega
      have hsome := Buffer.strcat_of_fits hcat
      obtain ⟨hcstr, hmem⟩ := Buffer.strcat_spec hsome
      rw [List.map_cons, loop, body_data hcs.1, hsome]
      have htails' : ∀ u ∈ temps (t.store c) cs, 0 ∈ u.bytes := fun u hu ↦
        htails u (List.mem_cons_of_mem _ hu)
      refine ih (t := t.store c) hcs.2 fun _ ↦ ⟨hmem, htails', ?_⟩
      rw [hcstr, List.length_append]
      omega

/-- **The loop over chunks is defined exactly if they fit.** -/
theorem loop_iff_fits (hcs : ∀ c ∈ cs, c ≠ []) :
    (∃ w, loop body ⟨b, t⟩ (cs.map .data) = some (.again w)) ↔ (cs ≠ [] → Fits b t cs) := by
  refine ⟨?_, loop_of_fits hcs⟩
  rintro ⟨w, hw⟩
  obtain ⟨-, -, -, -, hfits⟩ := loop_data hcs hw
  exact hfits

/-! ## The end of the connection -/

/-- What `recv` returns from the end of the connection on: zero, or an error. -/
def ending : Option Int → Recv
  | none => .closed
  | some code => .error code

/-- After some chunks the loop ends with the connection, and appends nothing for
its end. -/
def Stops (b t : Buffer size) (cs : List (List UInt8)) (e : Option Int) : Prop :=
  ∃ n w w', loop body ⟨b, t⟩ (cs.map .data) = some (.again w) ∧
    loop body ⟨b, t⟩ (cs.map .data ++ List.replicate n (ending e)) = some (.left w' ()) ∧
    w'.szBuffer = w.szBuffer

/-- An error does not end the loop: `szTemp` is appended once more. -/
theorem body_error {code : Int} : body w (.error code) =
    (w.szBuffer.strcat (w.szTemp.store [])).map fun b ↦ .again ⟨b, w.szTemp.store []⟩ := rfl

/-- However many errors there are. -/
theorem loop_error_ne_left {code : Int} {n : Nat} {w' : State} :
    loop body w (List.replicate n (.error code)) ≠ some (.left w' ()) := by
  induction n generalizing w with
  | zero => rintro ⟨⟩
  | succ n ih =>
      rw [List.replicate_succ, loop, body_error]
      cases w.szBuffer.strcat (w.szTemp.store []) with
      | none => rintro ⟨⟩
      | some b => exact ih

/-- A connection that fails keeps the loop going, after any chunks. -/
theorem not_stops_error (code : Int) : ¬ Stops b t cs (some code) := by
  rintro ⟨n, w, w', hw, hleft, -⟩
  rw [loop_append, hw] at hleft
  exact loop_error_ne_left hleft

/-- **The loop stops exactly if the connection is closed**, and if the chunks
before that have not led out of the arrays.  An error does not stop it. -/
theorem stops_iff (hcs : ∀ c ∈ cs, c ≠ []) (e : Option Int) :
    Stops b t cs e ↔ e = none ∧ (cs ≠ [] → Fits b t cs) := by
  cases e with
  | some code => exact iff_of_false (not_stops_error code) fun h ↦ by cases h.1
  | none =>
      rw [← loop_iff_fits hcs]
      constructor
      · rintro ⟨n, w, w', hw, -, -⟩
        exact ⟨rfl, w, hw⟩
      · rintro ⟨-, w, hw⟩
        refine ⟨1, w, ⟨w.szBuffer, w.szTemp.store []⟩, hw, ?_, rfl⟩
        rw [loop_append, hw]
        rfl

/-! ## The response -/

/-- The response is collected: whatever its length, nothing is done outside of the
arrays, and if it is short enough it is what the client prints. -/
def Collects (b t : Buffer size) (cs : List (List UInt8)) : Prop :=
  (∃ w, loop body ⟨b, t⟩ (cs.map .data ++ [.closed]) = some (.left w ())) ∧
    (cs.flatten.length ≤ 4095 →
      main ⟨b, t⟩ (cs.map .data ++ [.closed]) = some cs.flatten)

/-- Chunks as `recv` returns them, of a response without NULs. -/
def Proper (cs : List (List UInt8)) : Prop := ∀ c ∈ cs, c ≠ [] ∧ c.length ≤ size ∧ 0 ∉ c

/-- Behind each chunk there is a NUL in `szTemp`. -/
def Clean (t : Buffer size) : List (List UInt8) → Prop
  | [] => True
  | c :: cs => t.bytes[c.length]? = some 0 ∧ Clean (t.store c) cs

/-- What a chunk adds to `szBuffer`: itself, and what is behind it. -/
theorem cstr_store (hle : c.length ≤ size) (h0 : 0 ∉ c) :
    cstr (t.store c).bytes = c ++ cstr (t.bytes.drop c.length) := by
  rw [Buffer.bytes_store_of_le hle, cstr_append_of_not_mem h0]

/-- Nothing is behind a chunk exactly if there is a NUL. -/
theorem getElem?_eq_zero_iff (hle : c.length ≤ size) (h0 : 0 ∉ c) :
    t.bytes[c.length]? = some 0 ↔
      0 ∈ (t.store c).bytes ∧ cstr (t.bytes.drop c.length) = [] := by
  rw [cstr_eq_nil_iff, List.head?_drop, Buffer.bytes_store_of_le hle, List.mem_append,
    or_iff_right h0]
  constructor
  · intro h
    refine ⟨?_, .inr h⟩
    rw [← List.head?_drop] at h
    exact List.mem_of_mem_head? h
  · rintro ⟨hmem, hnil | h⟩
    · rw [hnil] at hmem
      cases hmem
    · exact h

theorem text_cons : text t (c :: cs) = cstr (t.store c).bytes ++ text (t.store c) cs := rfl

/-- The chunks themselves are added in any case. -/
theorem length_flatten_le (hcs : Proper cs) : cs.flatten.length ≤ (text t cs).length := by
  induction cs generalizing t with
  | nil => exact Nat.le_refl 0
  | cons c cs ih =>
      obtain ⟨⟨-, hle, h0⟩, hrest⟩ := List.forall_mem_cons.mp hcs
      have hlen := ih (t := t.store c) hrest
      rw [text_cons, cstr_store hle h0, List.flatten_cons]
      simp only [List.length_append]
      omega

/-- What is added is the chunks and nothing else if it is not longer. -/
theorem eq_nil_of_append_eq {front text chunks : List UInt8} (h : front ++ text = chunks)
    (hle : chunks.length ≤ text.length) : front = [] ∧ text = chunks := by
  have hnil : front = [] := by
    have hlen := congrArg List.length h
    rw [List.length_append] at hlen
    exact List.length_eq_zero_iff.mp (by omega)
  rw [hnil, List.nil_append] at h
  exact ⟨hnil, h⟩

/-- **The chunks and nothing else** are added exactly if each of them finds a NUL
behind it. -/
theorem clean_iff_text (hcs : Proper cs) : Clean t cs ↔
    (∀ u ∈ temps t cs, 0 ∈ u.bytes) ∧ text t cs = cs.flatten := by
  induction cs generalizing t with
  | nil => simp [Clean, temps, text]
  | cons c cs ih =>
      obtain ⟨⟨-, hle, h0⟩, hrest⟩ := List.forall_mem_cons.mp hcs
      have htemps : (∀ u ∈ temps t (c :: cs), 0 ∈ u.bytes) ↔
          0 ∈ (t.store c).bytes ∧ ∀ u ∈ temps (t.store c) cs, 0 ∈ u.bytes :=
        List.forall_mem_cons
      have hlen := length_flatten_le (t := t.store c) hrest
      rw [Clean, ih hrest, getElem?_eq_zero_iff hle h0, htemps, text_cons, cstr_store hle h0,
        List.flatten_cons, List.append_assoc, List.append_cancel_left_eq]
      constructor
      · rintro ⟨⟨hmem, hnil⟩, htails, htext⟩
        exact ⟨⟨hmem, htails⟩, by rw [hnil, htext, List.nil_append]⟩
      · rintro ⟨⟨hmem, htails⟩, htext⟩
        obtain ⟨hnil, htext⟩ := eq_nil_of_append_eq htext hlen
        exact ⟨⟨hmem, hnil⟩, htails, htext⟩

/-- **A NUL behind each chunk** is one that was there at the start, and that no
longer chunk has overwritten. -/
theorem clean_iff (hcs : Proper cs) : Clean t cs ↔
    (cs.map List.length).Pairwise (· ≤ ·) ∧ ∀ c ∈ cs, t.bytes[c.length]? = some 0 := by
  induction cs generalizing t with
  | nil => simp [Clean]
  | cons c cs ih =>
      obtain ⟨⟨-, hle, h0⟩, hrest⟩ := List.forall_mem_cons.mp hcs
      -- a byte of `szTemp` after the chunk
      have hget (k : Nat) : (t.store c).bytes[k]? = some 0 ↔
          c.length ≤ k ∧ t.bytes[k]? = some 0 := by
        rw [Buffer.bytes_store_of_le hle]
        rcases Nat.lt_or_ge k c.length with hk | hk
        · rw [List.getElem?_append_left hk]
          refine iff_of_false (fun h ↦ h0 (List.mem_of_getElem? h)) ?_
          rintro ⟨hge, -⟩
          omega
        · rw [List.getElem?_append_right hk, List.getElem?_drop, Nat.add_sub_cancel' hk]
          exact (and_iff_right hk).symm
      rw [Clean, ih hrest, List.map_cons, List.pairwise_cons, List.forall_mem_cons]
      simp only [hget, List.forall_mem_map]
      constructor
      · rintro ⟨hc, hpw, hall⟩
        exact ⟨⟨fun d hd ↦ (hall d hd).1, hpw⟩, hc, fun d hd ↦ (hall d hd).2⟩
      · rintro ⟨⟨hle, hpw⟩, hc, hall⟩
        exact ⟨hc, hpw, fun d hd ↦ ⟨hle d hd, hall d hd⟩⟩

/-- After the chunks the loop ends, and the client prints what is in `szBuffer`. -/
theorem loop_closed {w : State} (hw : loop body ⟨b, t⟩ (cs.map .data) = some (.again w)) :
    (∃ w', loop body ⟨b, t⟩ (cs.map .data ++ [.closed]) = some (.left w' ())) ∧
      main ⟨b, t⟩ (cs.map .data ++ [.closed]) = cstrIn w.szBuffer.bytes := by
  have hrun : loop body ⟨b, t⟩ (cs.map .data ++ [.closed]) =
      some (.left ⟨w.szBuffer, w.szTemp.store []⟩ ()) := by
    rw [loop_append, hw]
    rfl
  exact ⟨⟨_, hrun⟩, by rw [main, hrun]⟩

/-- If the loop ends with the connection, then the chunks have not led out of the
arrays. -/
theorem loop_data_of_closed (hcs : ∀ c ∈ cs, c ≠ []) {w' : State}
    (hw' : loop body ⟨b, t⟩ (cs.map .data ++ [.closed]) = some (.left w' ())) :
    ∃ w, loop body ⟨b, t⟩ (cs.map .data) = some (.again w) := by
  rw [loop_append] at hw'
  split at hw'
  · rename_i w hw
    exact ⟨w, hw⟩
  · obtain ⟨w, hw, -⟩ := loop_data hcs hw'
    cases hw

/-- An array holds the empty string if it starts with a NUL. -/
theorem cstr_buffer_eq_nil_iff : cstr b.bytes = [] ↔ b.bytes.head? = some 0 := by
  rw [cstr_eq_nil_iff]
  refine or_iff_right fun h ↦ ?_
  have hlen := Buffer.length_bytes b
  rw [h] at hlen
  cases hlen

/-- Clean chunks fit if they are not too long. -/
theorem fits_of_clean (hcs : Proper cs) (hclean : Clean t cs) (hb : cstr b.bytes = [])
    (hroom : cs.flatten.length ≤ 4095) : Fits b t cs := by
  obtain ⟨htails, htext⟩ := (clean_iff_text hcs).mp hclean
  refine ⟨List.mem_of_mem_head? (cstr_buffer_eq_nil_iff.mp hb), htails, ?_⟩
  rw [hb, htext, List.length_nil, Nat.zero_add]
  exact Nat.lt_succ_of_le hroom

/-- A response is collected exactly if its chunks are clean and there is room. -/
theorem collects_iff_clean (hcs : Proper cs) :
    Collects b t cs ↔ cs.flatten.length ≤ 4095 ∧ cstr b.bytes = [] ∧ Clean t cs := by
  have hne : ∀ c ∈ cs, c ≠ [] := fun c hc ↦ (hcs c hc).1
  have hlen := length_flatten_le (t := t) hcs
  constructor
  · rintro ⟨⟨w', hw'⟩, hmain⟩
    obtain ⟨w, hw⟩ := loop_data_of_closed hne hw'
    obtain ⟨_, hagain, htext, -, hfits⟩ := loop_data hne hw
    cases hagain
    have hroom : cs.flatten.length ≤ 4095 := by
      by_cases hnil : cs = []
      · rw [hnil]
        exact Nat.zero_le _
      · have hlt : (cstr b.bytes).length + (text t cs).length < 4096 := (hfits hnil).room
        omega
    have hcstr : cstr w.szBuffer.bytes = cs.flatten := by
      have hin := hmain hroom
      rw [(loop_closed hw).2, cstrIn] at hin
      split at hin
      · exact Option.some.inj hin
      · cases hin
    rw [hcstr] at htext
    obtain ⟨hb, htext⟩ := eq_nil_of_append_eq htext.symm hlen
    refine ⟨hroom, hb, (clean_iff_text hcs).mpr ⟨?_, htext⟩⟩
    by_cases hnil : cs = []
    · subst hnil
      intro u hu
      cases hu
    · exact (hfits hnil).tails
  · rintro ⟨hroom, hb, hclean⟩
    have hfits := fits_of_clean hcs hclean hb hroom
    obtain ⟨w, hw⟩ := loop_of_fits hne fun _ ↦ hfits
    obtain ⟨_, hagain, hcstr, hzero, -⟩ := loop_data hne hw
    cases hagain
    obtain ⟨hdone, hmain⟩ := loop_closed hw
    refine ⟨hdone, fun _ ↦ ?_⟩
    rw [hmain, cstrIn_of_mem (hzero (.inl hfits.head)), hcstr, hb,
      ((clean_iff_text hcs).mp hclean).2, List.nil_append]

/-- **How the response has to be split.**  For every content of the two arrays and
every response without NULs, in whatever chunks it comes, it is collected exactly
if it is shorter than `szBuffer`, this starts with a NUL, no chunk is shorter than
one before it, and `szTemp` has a NUL behind each of the chunks. -/
theorem collects_iff (hcs : Proper cs) : Collects b t cs ↔
    cs.flatten.length ≤ 4095 ∧ b.bytes.head? = some 0 ∧
      (cs.map List.length).Pairwise (· ≤ ·) ∧ ∀ c ∈ cs, t.bytes[c.length]? = some 0 := by
  rw [collects_iff_clean hcs, cstr_buffer_eq_nil_iff, clean_iff hcs]

/-! ## A short response -/

/-- An array of zeros. -/
def zeros : Buffer size := Buffer.fill size 0

theorem getElem?_zeros {k : Nat} (hk : k < size) : zeros.bytes[k]? = some 0 := by
  rw [zeros, Buffer.bytes_fill, List.getElem?_replicate, if_pos hk]

/-- The bytes `HTTP`, in two chunks of the same size. -/
def halves : List (List UInt8) := [[72, 84], [84, 80]]

theorem halves_proper : Proper halves := by simp [Proper, halves, size]

theorem halves_collected : Collects zeros zeros halves := by
  refine (collects_iff halves_proper).mpr ⟨by decide, rfl, by decide, ?_⟩
  intro c hc
  simp only [halves, List.mem_cons, List.not_mem_nil, or_false] at hc
  rcases hc with rfl | rfl <;> exact getElem?_zeros (by decide)

/-- The same bytes, with a second chunk that is shorter. -/
def threeAndOne : List (List UInt8) := [[72, 84, 84], [80]]

/-- Part of the first chunk is appended once more, behind the second. -/
theorem threeAndOne_not_collected : Proper threeAndOne ∧ ¬ Collects zeros zeros threeAndOne := by
  have hproper : Proper threeAndOne := by simp [Proper, threeAndOne, size]
  refine ⟨hproper, fun h ↦ ?_⟩
  obtain ⟨-, -, -, hsecond, -⟩ := (collects_iff_clean hproper).mp h
  rw [Buffer.bytes_store_of_le (by decide)] at hsecond
  cases hsecond

theorem halves_stop : Stops zeros zeros halves none := by
  refine (stops_iff (fun c hc ↦ (halves_proper c hc).1) none).mpr ⟨rfl, fun _ ↦ ?_⟩
  have hnul (c : List UInt8) (hc : c ∈ halves) : zeros.bytes[c.length]? = some 0 := by
    simp only [halves, List.mem_cons, List.not_mem_nil, or_false] at hc
    rcases hc with rfl | rfl <;> exact getElem?_zeros (by decide)
  exact fits_of_clean halves_proper ((clean_iff halves_proper).mpr ⟨by decide, hnul⟩)
    (cstr_buffer_eq_nil_iff.mpr rfl) (by decide)

/-- If the connection is reset instead, the loop does not stop. -/
theorem halves_reset : ¬ Stops zeros zeros halves (some 10054) := not_stops_error _

end CppExamples.WinSock.HttpClient
