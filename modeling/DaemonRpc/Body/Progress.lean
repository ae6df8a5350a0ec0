import DaemonRpc.Body.Stream

/-!
# Reading as far as a body is ready

Every item and every error leaves less to answer, so a stream can be asked again and again until it
waits or is finished.
-/

namespace DaemonRpc

/-- An answer after which the next one may be ready at once. -/
def Poll.isPassing {α : Type} : Poll α → Bool
  | .pending | .finished => false
  | .item _ | .failed _ => true

/-- What decreases while a stream is asked again and again. -/
def Less : Nat × Nat → Nat × Nat → Prop := Prod.Lex (· < ·) (· < ·)

/-- An item or an error of the octets leaves less to answer. -/
theorem ByteView.progress {v w : ByteView} {fired : Option AbortReason}
    {answer : Poll (List UInt8)} (h : v.poll fired = (answer, w)) (ha : answer.isPassing = true) :
    w.remaining + w.isOpen.toNat < v.remaining + v.isOpen.toNat := by
  unfold ByteView.poll at h
  split at h
  · simp only [Prod.mk.injEq] at h
    simp [← h.1, Poll.isPassing] at ha
  · next source hs =>
    have hv : v.remaining + v.isOpen.toNat = source.steps.length + 1 := by
      simp [ByteView.remaining, ByteView.isOpen, hs]
    have closed : ∀ how, (v.closeWith how).remaining + (v.closeWith how).isOpen.toNat = 0 := by
      intro how
      simp [ByteView.remaining, ByteView.isOpen, ByteView.closeWith]
    split at h
    · simp only [Prod.mk.injEq] at h
      rw [← h.2, closed, hv]
      omega
    · split at h
      · simp only [Prod.mk.injEq] at h
        simp [← h.1, Poll.isPassing] at ha
      · next octets rest hr =>
        simp only [Prod.mk.injEq] at h
        have := Reading.length_of_chunk hr
        rw [← h.2, hv]
        simp only [ByteView.remaining, ByteView.isOpen, Option.map_some, Option.getD_some,
          Option.isSome_some, Bool.toNat_true]
        omega
      · simp only [ByteView.closeWithReport, Prod.mk.injEq] at h
        rw [← h.2, closed, hv]
        omega
      · simp only [Prod.mk.injEq] at h
        rw [← h.2, closed, hv]
        omega
      · split at h
        · simp only [ByteView.closeWithReport, Prod.mk.injEq] at h
          rw [← h.2, hv]
          simp [ByteView.remaining, ByteView.isOpen, ByteView.closeWith]
        · simp only [Prod.mk.injEq] at h
          simp [← h.1, Poll.isPassing] at ha

/-- No more of the first and less of the second is less. -/
theorem less_of_le {a b c d : Nat} (h : a ≤ b) (hcd : c < d) : Less (a, c) (b, d) := by
  rcases Nat.lt_or_eq_of_le h with hlt | heq
  · exact Prod.Lex.left _ _ hlt
  · exact heq ▸ Prod.Lex.right _ hcd

/-- What is less than less is less. -/
theorem less_trans {a b c : Nat × Nat} (hab : Less a b) (hbc : Less b c) : Less a c := by
  rcases hab with ⟨_, _, h⟩ | ⟨_, h⟩ <;> rcases hbc with ⟨_, _, h'⟩ | ⟨_, h'⟩
  · exact Prod.Lex.left _ _ (Nat.lt_trans h h')
  · exact Prod.Lex.left _ _ h
  · exact Prod.Lex.left _ _ h'
  · exact Prod.Lex.right _ (Nat.lt_trans h h')

namespace RecordView

/-- A view that stopped has nothing to answer. -/
theorem remaining_stop (v : RecordView) : v.stop.remaining = 0 := rfl

/-- Delivering a line leaves less to answer. -/
theorem less_deliver {v w : RecordView} {line : String} {rest : List String}
    {answer : Poll Json.Value} (hr : v.ready = line :: rest)
    (h : v.deliver line rest = (answer, w)) :
    Less (w.remaining, w.ready.length) (v.remaining, v.ready.length) := by
  unfold deliver at h
  split at h <;> simp only [Prod.mk.injEq] at h
  · exact h.2 ▸ less_of_le (Nat.le_refl _) (by simp [hr])
  · exact h.2 ▸ less_of_le (Nat.zero_le _) (by simp [stop, hr])

/-- A chunk leaves less to read. -/
theorem remaining_withChunk {v : RecordView} {w : ByteView} (octets : List UInt8)
    (h : w.remaining < v.bytes.remaining) : (v.withChunk w octets).remaining < v.remaining := by
  simp only [remaining, withChunk]
  omega

/-- The end of the octets leaves less to read. -/
theorem remaining_atEnd {v : RecordView} (w : ByteView) (error : Option Error)
    (h : v.reading = true) : (v.atEnd w error).remaining < v.remaining := by
  have : error.isSome.toNat ≤ 1 := by cases error <;> simp
  simp only [remaining, atEnd, remaining_close, h, Bool.toNat_true, Bool.toNat_false]
  omega

/-- A record or an error leaves less to answer. -/
theorem progress {v w : RecordView} {fired : Option AbortReason} {answer : Poll Json.Value}
    (h : v.poll fired = (answer, w)) (ha : answer.isPassing = true) :
    Less (w.remaining, w.ready.length) (v.remaining, v.ready.length) := by
  fun_induction RecordView.poll v fired with
  | case1 v line rest hr => exact less_deliver hr h
  | case2 v e hd hr =>
    simp only [Prod.mk.injEq] at h
    rw [← h.2, remaining_stop]
    refine Prod.Lex.left _ _ ?_
    simp only [remaining, hd, Option.isSome_some, Bool.toNat_true]
    omega
  | case3 | case8 =>
    simp only [Prod.mk.injEq] at h
    simp [← h.1, Poll.isPassing] at ha
  | case4 v hd hr hreading octets bytes hp hlt ih =>
    exact less_trans (ih h) (Prod.Lex.left _ _ (remaining_withChunk octets hlt))
  | case5 v hd hr hreading e bytes hp htrailer ih =>
    exact less_trans (ih h) (Prod.Lex.left _ _ (remaining_atEnd bytes (some e) hreading))
  | case6 v hd hr hreading e bytes hp htrailer =>
    simp only [Prod.mk.injEq] at h
    rw [← h.2, remaining_stop]
    refine Prod.Lex.left _ _ ?_
    simp only [remaining, hreading, Bool.toNat_true]
    omega
  | case7 v hd hr hreading bytes hp ih =>
    exact less_trans (ih h) (Prod.Lex.left _ _ (remaining_atEnd bytes none hreading))

/-- Read as far as the body is ready, after what is collected already. -/
def collect (v : RecordView) (fired : Option AbortReason) (collected : List Json.Value) :
    Await (List Json.Value) × RecordView × List Json.Value :=
  match h : v.poll fired with
  | (.pending, w) => (.pending, w, collected)
  | (.item record, w) =>
    have := progress h rfl
    collect w fired (collected ++ [record])
  | (.failed e, w) => (.done (.error e), w, collected)
  | (.finished, w) => (.done (.ok collected), w, collected)
termination_by (v.remaining, v.ready.length)
decreasing_by exact this

end RecordView

namespace Stream

/-- An item or an error leaves less to answer. -/
theorem progress {s t : Stream} {fired : Option AbortReason} {answer : Poll Item}
    (h : s.poll fired = (answer, t)) (ha : answer.isPassing = true) : Less t.rank s.rank := by
  have passing : ∀ {α β : Type} (f : α → β) (p : Poll α),
      (mapPoll f p).isPassing = p.isPassing := by
    intro α β f p
    cases p <;> rfl
  have passingTyped : ∀ (type : RecordType) (p : Poll Json.Value),
      (readTyped type p).isPassing = p.isPassing := by
    intro type p
    cases p with
    | item v => simp only [readTyped]; split <;> rfl
    | _ => rfl
  cases s with
  | bytes v =>
    simp only [poll, Prod.mk.injEq] at h
    rw [← h.1, passing] at ha
    rw [← h.2]
    exact Prod.Lex.left _ _ (ByteView.progress rfl ha)
  | records v =>
    simp only [poll, Prod.mk.injEq] at h
    rw [← h.1, passing] at ha
    rw [← h.2]
    exact RecordView.progress rfl ha
  | typed type v =>
    simp only [poll, Prod.mk.injEq] at h
    rw [← h.1, passingTyped] at ha
    rw [← h.2]
    exact RecordView.progress rfl ha

/-- Ask again and again until the stream waits or is finished, also after errors. -/
def drain (s : Stream) (fired : Option AbortReason) : List (Poll Item) × Stream :=
  match h : s.poll fired with
  | (.pending, t) => ([.pending], t)
  | (.finished, t) => ([.finished], t)
  | (.item item, t) =>
    have := progress h rfl
    let (answers, last) := drain t fired
    (.item item :: answers, last)
  | (.failed e, t) =>
    have := progress h rfl
    let (answers, last) := drain t fired
    (.failed e :: answers, last)
termination_by s.rank
decreasing_by all_goals exact this

end Stream

end DaemonRpc
