import DaemonRpc.Proofs.Body.ByteTrace

/-!
# Reading a whole body

What comes of reading a body to its end in one go: all its data, or the error that ends the reading
(`wholeBody?`), after as many waits as the body makes before. Reading as far as the body is ready
comes to the result if there is no wait before it, and is one wait nearer to it otherwise
(`ByteView.ending?_of_collect`).
-/

namespace DaemonRpc

/-- The data of a step. -/
def BodyStep.octets : BodyStep → List UInt8
  | .frame (.data octets) => octets
  | _ => []

/-- What reading steps to the end comes to, and after how many waits; none if they stall. -/
def wholeBody? (steps : List BodyStep) : Option (Nat × Except Error (List UInt8)) :=
  let read := steps.takeWhile (!·.isLast)
  let waits := read.countP (· = .pause)
  match steps.dropWhile (!·.isLast) with
  | [] => some (waits, .ok (read.flatMap BodyStep.octets))
  | last :: _ => last.ending?.map fun e => (waits, .error e)

/-- The same after one wait more. -/
def delayed {α : Type} (p : Nat × α) : Nat × α := (p.1 + 1, p.2)

/-- The same with data before. -/
def prependOctets (octets : List UInt8) (p : Nat × Except Error (List UInt8)) :
    Nat × Except Error (List UInt8) :=
  (p.1, p.2.map (octets ++ ·))

/-! ## Step by step -/

theorem wholeBody?_cons_of_isLast {step : BodyStep} (h : step.isLast = true)
    (rest : List BodyStep) :
    wholeBody? (step :: rest) = step.ending?.map fun e => (0, .error e) := by
  simp [wholeBody?, h]

theorem wholeBody?_pause (rest : List BodyStep) :
    wholeBody? (.pause :: rest) = (wholeBody? rest).map delayed := by
  have hpause : BodyStep.pause.isLast = false := rfl
  simp only [wholeBody?, List.takeWhile_cons, List.dropWhile_cons, hpause, Bool.not_false, if_true]
  cases rest.dropWhile (!·.isLast) with
  | nil => simp [delayed, BodyStep.octets]
  | cons last => simp [delayed, Function.comp_def]

theorem wholeBody?_frame {f : Frame} (h : (BodyStep.frame f).isLast = false)
    (rest : List BodyStep) :
    wholeBody? (.frame f :: rest) =
      (wholeBody? rest).map (prependOctets (BodyStep.frame f).octets) := by
  simp only [wholeBody?, List.takeWhile_cons, List.dropWhile_cons, h, Bool.not_false, if_true]
  cases rest.dropWhile (!·.isLast) with
  | nil => simp [prependOctets, Except.map]
  | cons last => simp [prependOctets, Except.map, Function.comp_def]

theorem map_prependOctets_nil (p : Option (Nat × Except Error (List UInt8))) :
    p.map (prependOctets []) = p := by
  rcases p with _ | ⟨waits, _ | octets⟩ <;> rfl

theorem map_prependOctets (a b : List UInt8) (p : Option (Nat × Except Error (List UInt8))) :
    (p.map (prependOctets b)).map (prependOctets a) = p.map (prependOctets (a ++ b)) := by
  rcases p with _ | ⟨waits, _ | octets⟩ <;> simp [prependOctets, Except.map]

/-- What comes of the steps, by what a reader meets next. -/
theorem wholeBody?_eq (steps : List BodyStep) :
    wholeBody? steps =
      match Reading.ofSteps steps with
      | .pending rest => (wholeBody? rest).map delayed
      | .chunk octets rest => (wholeBody? rest).map (prependOctets octets)
      | .report text => some (0, .error (streamError text))
      | .failure e => some (0, .error e)
      | .finished => some (0, .ok []) := by
  -- By what is skipped: empty data and trailers without a report add no data.
  fun_induction Reading.ofSteps steps with
  | case1 => rfl
  | case2 rest => exact wholeBody?_pause rest
  | case3 rest => simp [wholeBody?_cons_of_isLast, BodyStep.isLast, BodyStep.ending?]
  | case4 rest ih =>
    rw [wholeBody?_frame rfl, ← ih]
    exact map_prependOctets_nil _
  | case5 b octets rest => exact wholeBody?_frame rfl rest
  | case6 fields rest text h =>
    have hending : (BodyStep.frame (.trailers fields)).ending? = some (streamError text) := by
      simp [BodyStep.ending?, h]
    rw [wholeBody?_cons_of_isLast (BodyStep.isLast_of_ending? hending), hending]
    rfl
  | case7 fields rest h ih =>
    rw [wholeBody?_frame (by simp [BodyStep.isLast, BodyStep.ending?, h]), ← ih]
    exact map_prependOctets_nil _
  | case8 e rest => exact wholeBody?_cons_of_isLast rfl rest

/-! ## A view that is read so -/

namespace ByteView

variable {v w : ByteView} {collected : List UInt8}

/-- What reading the body to its end comes to, after what is collected already. -/
def ending? (v : ByteView) (collected : List UInt8) : Option (Nat × Except Error (List UInt8)) :=
  v.source.bind fun source => (wholeBody? source.steps).map (prependOctets collected)

/-- The view has its body, and nothing was reported on the head. -/
structure Plain (v : ByteView) : Prop where
  source : v.source.isSome = true
  headReport : v.headReport = none

theorem Plain.ending?_eq {source : BodySource} (h : v.source = some source)
    (collected : List UInt8) :
    v.ending? collected = (wholeBody? source.steps).map (prependOctets collected) := by
  rw [ending?, h]
  rfl

/-- What a poll without a signal makes of the ending. -/
inductive Nears (v : ByteView) (collected : List UInt8) : Poll (List UInt8) → ByteView → Prop
  | pending {w : ByteView} (plain : w.Plain)
      (ending : v.ending? collected = (w.ending? collected).map delayed) :
      Nears v collected .pending w
  | item {octets : List UInt8} {w : ByteView} (plain : w.Plain)
      (ending : v.ending? collected = w.ending? (collected ++ octets)) :
      Nears v collected (.item octets) w
  | failed {e : Error} {w : ByteView} (ending : v.ending? collected = some (0, .error e)) :
      Nears v collected (.failed e) w
  | finished {w : ByteView} (ending : v.ending? collected = some (0, .ok collected)) :
      Nears v collected .finished w

theorem Plain.nears (h : v.Plain) (collected : List UInt8) {answer : Poll (List UInt8)}
    (hpoll : v.poll none = (answer, w)) : v.Nears collected answer w := by
  obtain rfl : (v.poll none).1 = answer := congrArg Prod.fst hpoll
  obtain rfl : (v.poll none).2 = w := congrArg Prod.snd hpoll
  obtain ⟨hsource, hhead⟩ := h
  obtain ⟨source, hsource⟩ := Option.isSome_iff_exists.1 hsource
  have hending := (Plain.ending?_eq hsource collected).trans
    (congrArg (·.map (prependOctets collected)) (wholeBody?_eq source.steps))
  simp only [poll, hsource]
  cases hreading : Reading.ofSteps source.steps with
  | pending rest =>
    rw [hreading] at hending
    refine .pending ⟨rfl, hhead⟩ (hending.trans ?_)
    simp [ending?, delayed, prependOctets, Function.comp_def]
  | chunk octets rest =>
    rw [hreading] at hending
    exact .item ⟨rfl, hhead⟩ (hending.trans (map_prependOctets collected octets _))
  | report text =>
    rw [hreading] at hending
    simp only [closeWithReport_eq]
    exact .failed hending
  | failure e =>
    rw [hreading] at hending
    exact .failed hending
  | finished =>
    rw [hreading] at hending
    rw [hhead]
    refine .finished (hending.trans ?_)
    simp [prependOctets, Except.map]

/-- Reading as far as the body is ready comes to the result, or to a wait. -/
theorem Plain.collect (h : v.Plain) (collected : List UInt8) :
    match v.collect none collected with
    | (.done result, _, _) => v.ending? collected = some (0, result)
    | (.pending, w, after) => w.Plain ∧ v.ending? collected = (w.ending? after).map delayed := by
  fun_induction ByteView.collect v none collected with
  | case1 v collected w hpoll =>
    cases h.nears collected hpoll with
    | pending hplain hending => exact ⟨hplain, hending⟩
  | case2 v collected octets w hpoll _ ih =>
    cases h.nears collected hpoll with
    | item hplain hending =>
      rw [hending]
      exact ih hplain
  | case3 v collected e w hpoll =>
    cases h.nears collected hpoll with
    | failed hending => exact hending
  | case4 v collected w hpoll =>
    cases h.nears collected hpoll with
    | finished hending => exact hending

/-- A signal that has fired ends the reading with its reason. -/
theorem Plain.collect_of_fired (h : v.Plain) (reason : AbortReason) (collected : List UInt8) :
    (v.collect (some reason) collected).1 = .done (.error reason.error) := by
  obtain ⟨source, hsource⟩ := Option.isSome_iff_exists.1 h.source
  have hpoll : v.poll (some reason) = (.failed reason.error, v.closeWith (.cancelled reason)) := by
    rw [poll, hsource]
  rw [ByteView.collect]
  split <;> simp_all

end ByteView

end DaemonRpc
