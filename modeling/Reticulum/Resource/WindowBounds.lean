import Reticulum.Lib.Runs
import Reticulum.Resource.Outcome

/-!
# The window of a receiver

A receiver asks for a window of parts. The window starts as the last resource on the link left it,
grows with each window that has come, shrinks with each timeout, and its bound follows the rate
(`accept`, `receive_part`, `start_watchdog`). The bounds stay in order exactly as long as no
resource inherits more than `WINDOW_MAX_SLOW` and the bound of a very slow transfer is lowered only
under a window that is that small already (`windows_ordered_iff`).

## Implementation notes

The state is a link with every receiving resource on it, the copies that are assembled included.
A resource may conclude at any time, so that every window that a transfer can leave on the link is
one that the next transfer may inherit. The window of a sender is never changed.
-/

namespace Reticulum.Resource

open Runs

/-- The bounds of the window are in order. -/
structure InBounds (r : Resource) : Prop where
  least : r.windowMin ≤ r.window
  most : r.window ≤ r.windowMax
  bounded : r.windowMax ≤ windowMaxFast

/-- No subtraction of the next growth or the next timeout underflows. -/
structure NoUnderflow (r : Resource) : Prop where
  /-- `window - window_min` after the window has grown -/
  grows : r.windowMin ≤ r.window + 1
  /-- `window_max - window` after both have shrunk -/
  shrinks : r.windowMin < r.window → r.windowMin < r.windowMax → r.window - 1 ≤ r.windowMax - 1
  /-- `window_flexibility - 1` -/
  flexibility : 1 ≤ r.windowFlexibility

/-- A link with its receiving resources. -/
structure Receiving where
  lastResourceWindow : Option Nat
  resources : List Resource

/-- What happens on the link: an advertisement is accepted, a resource takes an operation or
concludes, or a resource that was sent concludes. -/
inductive LinkEvent
  | accept (adv : Advertisement) (callback : Bool)
  | part (i : Nat) (data : Bytes) (env : Readings)
  | hashmapUpdate (i : Nat) (update : Option (Nat × Bytes)) (env : Readings)
  | requestNext (i : Nat) (env : Readings)
  | watchdog (i : Nat) (env : Readings)
  | cancel (i : Nat) (env : Readings)
  | concluded (i : Nat)
  | sentConcluded

/-- A resource has taken an operation. -/
def Receiving.put (s : Receiving) (i : Nat) (r : Resource) (effects : List Effect) : Receiving :=
  { s with resources := s.resources.set i r ++ assemblies effects }

variable (fullHash : Bytes → Digest)

/-- One event. -/
def Receiving.step (s : Receiving) : LinkEvent → Option Receiving
  | .accept adv callback => (Resource.accept adv s.lastResourceWindow callback).map fun r =>
      { s with resources := s.resources ++ [r] }
  | .part i data env => s.resources[i]?.map fun r =>
      s.put i (r.receivePart fullHash data env).1 (r.receivePart fullHash data env).2.1
  | .hashmapUpdate i update env => s.resources[i]?.map fun r =>
      s.put i (r.hashmapUpdatePacket update env).1 (r.hashmapUpdatePacket update env).2.1
  | .requestNext i env => s.resources[i]?.map fun r =>
      s.put i (r.requestNext env).1 (r.requestNext env).2
  | .watchdog i env => s.resources[i]?.map fun r =>
      s.put i (r.watchdog env).1 (r.watchdog env).2
  | .cancel i env => s.resources[i]?.map fun r =>
      s.put i (r.cancel env).1 (r.cancel env).2
  | .concluded i => s.resources[i]?.map fun r => { s with lastResourceWindow := some r.window }
  | .sentConcluded => some { s with lastResourceWindow := some initialWindow }

/-- A link on which no resource has concluded yet. -/
def Receiving.fresh : Receiving := { lastResourceWindow := none, resources := [] }

/-- Every window is in order, and no subtraction is about to underflow. -/
def WindowsOrdered (s : Receiving) : Prop :=
  ∀ r ∈ s.resources, InBounds r ∧ NoUnderflow r

/-- The part ends a window whose rate was very slow for the second time, and none was fast. -/
def Demotes (r : Resource) (data : Bytes) (env : Readings) : Prop :=
  (r.beginPart env).status ≠ .failed ∧
    ¬(((r.beginPart env).storeInWindow fullHash data).receivedCount =
        ((r.beginPart env).storeInWindow fullHash data).totalParts ∧ r.assemblyLock = false) ∧
    ((r.beginPart env).storeInWindow fullHash data).outstandingParts = 0 ∧
    r.reqSent = true ∧ env.sinceRequest = true ∧ (r.beginPart env).fastRateRounds = 0 ∧
    env.dataRateFast = false ∧ env.dataRateVerySlow = true ∧
    r.verySlowRateRounds + 1 = verySlowRateThreshold

/-- The condition: what a resource inherits is at most `WINDOW_MAX_SLOW`, and a window that is
lowered to `WINDOW_MAX_VERY_SLOW` is not larger. -/
def KeepsBounds (s : Receiving) : LinkEvent → Prop
  | .accept adv _ => adv.t ≤ maxEfficientSize * 3 →
      s.lastResourceWindow.getD initialWindow ≤ windowMaxSlow
  | .part i data env => ∀ r, s.resources[i]? = some r → r.Demotes fullHash data env →
      (r.beginPart env).growWindow.window ≤ windowMaxVerySlow
  | _ => True

/-! ## One resource -/

/-- The window of a receiver while the condition is met. -/
structure Ranged (r : Resource) : Prop extends InBounds r where
  floor : initialWindowMin ≤ r.windowMin
  flexibility : r.windowFlexibility = initialWindowFlexibility

/-- The window and its bounds are the same. -/
structure SameBounds (r r' : Resource) : Prop where
  window : r'.window = r.window
  windowMax : r'.windowMax = r.windowMax
  windowMin : r'.windowMin = r.windowMin
  windowFlexibility : r'.windowFlexibility = r.windowFlexibility

section Resources

variable {fullHash} {r r' : Resource} {env : Readings} {data : Bytes}

theorem SameBounds.refl (r : Resource) : SameBounds r r := ⟨rfl, rfl, rfl, rfl⟩

theorem SameBounds.trans {r'' : Resource} (h : SameBounds r r') (h' : SameBounds r' r'') :
    SameBounds r r'' :=
  ⟨h'.window.trans h.window, h'.windowMax.trans h.windowMax, h'.windowMin.trans h.windowMin,
    h'.windowFlexibility.trans h.windowFlexibility⟩

theorem Ranged.of_same (h : Ranged r) (hsame : SameBounds r r') : Ranged r' where
  least := by
    rw [hsame.windowMin, hsame.window]
    exact h.least
  most := by
    rw [hsame.window, hsame.windowMax]
    exact h.most
  bounded := hsame.windowMax ▸ h.bounded
  floor := hsame.windowMin ▸ h.floor
  flexibility := hsame.windowFlexibility.trans h.flexibility

theorem Ranged.noUnderflow (h : Ranged r) : NoUnderflow r where
  grows := h.least.trans (Nat.le_succ _)
  shrinks := fun _ _ => Nat.sub_le_sub_right h.most 1
  flexibility := by
    rw [h.flexibility]
    decide

theorem cancel_sameBounds (r : Resource) (env : Readings) : SameBounds r (r.cancel env).1 := by
  rw [cancel_eq]
  exact ⟨rfl, rfl, rfl, rfl⟩

theorem prepareRequestNextData_sameBounds (r : Resource) :
    SameBounds r r.prepareRequestNextData.1 := by
  unfold prepareRequestNextData
  split
  · exact SameBounds.refl r
  · dsimp only
    split
    · split <;> exact ⟨rfl, rfl, rfl, rfl⟩
    · exact ⟨rfl, rfl, rfl, rfl⟩

theorem requestNext_sameBounds (r : Resource) (env : Readings) :
    SameBounds r (r.requestNext env).1 := by
  have hsame := prepareRequestNextData_sameBounds r
  unfold requestNext
  split
  · rename_i hprepared
    rw [hprepared] at hsame
    exact hsame
  · rename_i hprepared
    rw [hprepared] at hsame
    split
    · exact hsame.trans ⟨rfl, rfl, rfl, rfl⟩
    · exact hsame.trans (cancel_sameBounds _ env)

theorem hashmapUpdatePacket_sameBounds (r : Resource) (update : Option (Nat × Bytes))
    (env : Readings) : SameBounds r (r.hashmapUpdatePacket update env).1 := by
  have hfilled : ∀ segment hashes, SameBounds r
      ({ r with retriesLeft := r.maxRetries }.fillHashmap segment hashes) :=
    fun segment hashes => ⟨rfl, rfl, rfl, rfl⟩
  unfold hashmapUpdatePacket
  split
  · dsimp only
    split
    · unfold hashmapUpdate
      split
      · exact ⟨rfl, rfl, rfl, rfl⟩
      · dsimp only
        split
        · exact (hfilled _ _).trans (cancel_sameBounds _ env)
        · exact ⟨rfl, rfl, rfl, rfl⟩
    · exact ⟨rfl, rfl, rfl, rfl⟩
  · exact SameBounds.refl r

theorem storeMatches_sameBounds (partHash : MapHash) (data : Bytes) (hashes : List MapHash)
    (i : Nat) (r : Resource) : SameBounds r (storeMatches partHash data hashes i r) := by
  induction hashes generalizing i r with
  | nil => exact SameBounds.refl r
  | cons h hashes ih =>
      rw [storeMatches]
      split
      · have hstored : SameBounds r (r.storePart i data) := ⟨rfl, rfl, rfl, rfl⟩
        exact hstored.trans (ih (i + 1) _)
      · exact ih (i + 1) r

theorem storeInWindow_sameBounds (fullHash : Bytes → Digest) (r : Resource) (data : Bytes) :
    SameBounds r (r.storeInWindow fullHash data) := by
  have hbegun : SameBounds r { r with status := .transferring } := ⟨rfl, rfl, rfl, rfl⟩
  unfold storeInWindow
  exact hbegun.trans (storeMatches_sameBounds _ data _ _ _)

/-- A subtraction that does not underflow. -/
theorem usizeSub_of_le {a b : Nat} (hle : b ≤ a) (ha : a ≤ 100) : usizeSub a b = a - b := by
  unfold usizeSub
  omega

/-- The first response may raise the bound, and nothing else. -/
theorem beginPart_bounds (r : Resource) (env : Readings) :
    (r.beginPart env).window = r.window ∧ (r.beginPart env).windowMin = r.windowMin ∧
      (r.beginPart env).windowFlexibility = r.windowFlexibility ∧
      ((r.beginPart env).windowMax = r.windowMax ∨
        (r.beginPart env).windowMax = windowMaxFast) := by
  unfold beginPart firstResponse
  split
  · exact ⟨rfl, rfl, rfl, .inl rfl⟩
  · dsimp only
    split
    · dsimp only
      split
      · exact ⟨rfl, rfl, rfl, .inr rfl⟩
      · exact ⟨rfl, rfl, rfl, .inl rfl⟩
    · exact ⟨rfl, rfl, rfl, .inl rfl⟩

section

variable (h : Ranged r)

include h

/-- A bound that is raised to its end is still in order. -/
theorem Ranged.raised (hwindow : r'.window = r.window)
    (hmin : r'.windowMin = r.windowMin) (hflex : r'.windowFlexibility = r.windowFlexibility)
    (hmax : r'.windowMax = r.windowMax ∨ r'.windowMax = windowMaxFast) : Ranged r' where
  least := by
    rw [hwindow, hmin]
    exact h.least
  most := by
    rw [hwindow]
    rcases hmax with hmax | hmax
    · exact hmax ▸ h.most
    · exact hmax ▸ h.most.trans h.bounded
  bounded := by
    rcases hmax with hmax | hmax
    · exact hmax ▸ h.bounded
    · exact hmax.le
  floor := hmin ▸ h.floor
  flexibility := hflex.trans h.flexibility

theorem Ranged.beginPart (env : Readings) : Ranged (r.beginPart env) := by
  obtain ⟨hwindow, hmin, hflex, hmax⟩ := beginPart_bounds r env
  exact h.raised hwindow hmin hflex hmax

theorem Ranged.growWindow : Ranged r.growWindow := by
  unfold Resource.growWindow
  split
  · rename_i hgrows
    have hbounded := h.bounded
    have hleast := h.least
    have hfloor := h.floor
    have hsub : usizeSub (r.window + 1) r.windowMin = r.window + 1 - r.windowMin :=
      usizeSub_of_le (by omega) (by unfold windowMaxFast at hbounded; omega)
    have hflex : usizeSub r.windowFlexibility 1 = 3 := by
      rw [h.flexibility]
      rfl
    refine ⟨⟨?_, hgrows, hbounded⟩, ?_, h.flexibility⟩
    · dsimp only
      rw [hsub, hflex]
      split <;> omega
    · dsimp only
      split
      · exact hfloor.trans (Nat.le_succ _)
      · exact hfloor
  · exact h

theorem Ranged.shrinkWindow : Ranged r.shrinkWindow := by
  have hleast := h.least
  have hmost := h.most
  have hbounded := h.bounded
  unfold Resource.shrinkWindow
  split
  swap
  · exact h
  rename_i hshrinks
  dsimp only
  rw [if_pos (by omega)]
  have hsub : usizeSub (r.windowMax - 1) (r.window - 1) = r.windowMax - 1 - (r.window - 1) :=
    usizeSub_of_le (by omega) (by unfold windowMaxFast at hbounded; omega)
  have hflex : usizeSub r.windowFlexibility 1 = 3 := by
    rw [h.flexibility]
    rfl
  rw [hsub, hflex]
  split
  · exact ⟨⟨by dsimp only; omega, by dsimp only; omega, by dsimp only; omega⟩, h.floor,
      h.flexibility⟩
  · exact ⟨⟨by dsimp only; omega, by dsimp only; omega, by dsimp only; omega⟩, h.floor,
      h.flexibility⟩

theorem Ranged.watchdog (env : Readings) : Ranged (r.watchdog env).1 := by
  have hcancel : ∀ r' : Resource, Ranged r' → Ranged (r'.cancel env).1 :=
    fun r' h' => h'.of_same (cancel_sameBounds r' env)
  unfold Resource.watchdog
  split
  · exact h
  split
  · exact hcancel r h
  split
  · exact h
  split
  · split
    · exact hcancel r h
    · dsimp only
      split
      · exact h.of_same ⟨rfl, rfl, rfl, rfl⟩
      · exact hcancel _ (h.of_same ⟨rfl, rfl, rfl, rfl⟩)
  · split
    · exact hcancel r h
    · split
      · have hretry : SameBounds r.shrinkWindow { r.shrinkWindow with
            retriesLeft := r.retriesLeft - 1, waitingForHmu := false } := ⟨rfl, rfl, rfl, rfl⟩
        exact h.shrinkWindow.of_same (hretry.trans (requestNext_sameBounds _ env))
      · exact hcancel r h
  · split
    · exact hcancel r h
    · exact h.of_same ⟨rfl, rfl, rfl, rfl⟩
  · exact h

end

/-- A resource that inherits at most the bound of a slow transfer. -/
theorem ranged_accept {adv : Advertisement} {last : Option Nat} {callback : Bool}
    (haccept : Resource.accept adv last callback = some r)
    (hleast : initialWindowMin ≤ last.getD initialWindow)
    (hmost : last.getD initialWindow ≤ windowMaxSlow) : Ranged r := by
  unfold Resource.accept at haccept
  split at haccept
  · cases haccept
  · cases haccept
    exact ⟨⟨hleast, hmost, (by decide : windowMaxSlow ≤ windowMaxFast)⟩, le_rfl, rfl⟩

/-! ### A part -/

/-- What the rate of a transfer depends on is the same. -/
structure SameRates (r r' : Resource) : Prop where
  reqSent : r'.reqSent = r.reqSent
  fastRateRounds : r'.fastRateRounds = r.fastRateRounds
  verySlowRateRounds : r'.verySlowRateRounds = r.verySlowRateRounds
  assemblyLock : r'.assemblyLock = r.assemblyLock

theorem SameRates.trans {r'' : Resource} (h : SameRates r r') (h' : SameRates r' r'') :
    SameRates r r'' :=
  ⟨h'.reqSent.trans h.reqSent, h'.fastRateRounds.trans h.fastRateRounds,
    h'.verySlowRateRounds.trans h.verySlowRateRounds, h'.assemblyLock.trans h.assemblyLock⟩

theorem storeMatches_sameRates (partHash : MapHash) (data : Bytes) (hashes : List MapHash)
    (i : Nat) (r : Resource) : SameRates r (storeMatches partHash data hashes i r) := by
  induction hashes generalizing i r with
  | nil => exact ⟨rfl, rfl, rfl, rfl⟩
  | cons h hashes ih =>
      rw [storeMatches]
      split
      · have hstored : SameRates r (r.storePart i data) := ⟨rfl, rfl, rfl, rfl⟩
        exact hstored.trans (ih (i + 1) _)
      · exact ih (i + 1) r

theorem storeInWindow_sameRates (fullHash : Bytes → Digest) (r : Resource) (data : Bytes) :
    SameRates r (r.storeInWindow fullHash data) := by
  have hbegun : SameRates r { r with status := .transferring } := ⟨rfl, rfl, rfl, rfl⟩
  unfold storeInWindow
  exact hbegun.trans (storeMatches_sameRates _ data _ _ _)

theorem growWindow_sameRates (r : Resource) : SameRates r r.growWindow := by
  unfold Resource.growWindow
  split <;> exact ⟨rfl, rfl, rfl, rfl⟩

theorem beginPart_rates (r : Resource) (env : Readings) :
    (r.beginPart env).reqSent = r.reqSent ∧
      (r.beginPart env).verySlowRateRounds = r.verySlowRateRounds ∧
      (r.beginPart env).assemblyLock = r.assemblyLock := by
  unfold beginPart firstResponse
  split
  · exact ⟨rfl, rfl, rfl⟩
  · dsimp only
    split <;> exact ⟨rfl, rfl, rfl⟩

/-- The rate of a window is very slow for the second time, and none was fast. -/
def VerySlow (r : Resource) (env : Readings) : Prop :=
  r.reqSent = true ∧ env.sinceRequest = true ∧ r.fastRateRounds = 0 ∧ env.dataRateFast = false ∧
    env.dataRateVerySlow = true ∧ r.verySlowRateRounds + 1 = verySlowRateThreshold

/-- A measurement raises the bound, leaves it, or lowers it to that of a very slow transfer. -/
theorem measureRate_bounds (r : Resource) (env : Readings) :
    (r.measureRate env).window = r.window ∧ (r.measureRate env).windowMin = r.windowMin ∧
      (r.measureRate env).windowFlexibility = r.windowFlexibility ∧
      (VerySlow r env → (r.measureRate env).windowMax = windowMaxVerySlow) ∧
      (¬VerySlow r env → (r.measureRate env).windowMax = r.windowMax ∨
        (r.measureRate env).windowMax = windowMaxFast) := by
  unfold measureRate
  split
  swap
  · rename_i hidle
    exact ⟨rfl, rfl, rfl, fun hslow => absurd ⟨hslow.1, hslow.2.1⟩ hidle, fun _ => .inl rfl⟩
  rename_i hmeasured
  by_cases hfast : env.dataRateFast ∧ r.fastRateRounds < fastRateThreshold
  · rw [if_pos hfast]
    dsimp only
    rw [if_neg (fun hslow => absurd hslow.1 (Nat.succ_ne_zero _))]
    refine ⟨rfl, rfl, rfl, fun hslow => ?_, fun _ => ?_⟩
    · exact absurd (hfast.1.symm.trans hslow.2.2.2.1) Bool.noConfusion
    · dsimp only
      split
      · exact .inr rfl
      · exact .inl rfl
  rw [if_neg hfast]
  by_cases hslow : r.fastRateRounds = 0 ∧ env.dataRateVerySlow ∧
      r.verySlowRateRounds < verySlowRateThreshold
  · rw [if_pos hslow]
    have hnotFast : env.dataRateFast = false := by
      by_contra hother
      refine hfast ⟨by simpa using hother, ?_⟩
      rw [hslow.1]
      decide
    refine ⟨rfl, rfl, rfl, fun hvery => if_pos hvery.2.2.2.2.2, fun hvery => .inl ?_⟩
    refine if_neg fun hsecond => hvery ?_
    exact ⟨hmeasured.1, hmeasured.2, hslow.1, hnotFast, hslow.2.1, hsecond⟩
  · rw [if_neg hslow]
    refine ⟨rfl, rfl, rfl, fun hvery => absurd ⟨hvery.2.2.1, hvery.2.2.2.2.1, ?_⟩ hslow,
      fun _ => .inl rfl⟩
    have hsecond := hvery.2.2.2.2.2
    omega

theorem Ranged.measureRate (h : Ranged r) (hlow : VerySlow r env → r.window ≤ windowMaxVerySlow) :
    Ranged (r.measureRate env) := by
  obtain ⟨hwindow, hmin, hflex, hlowered, hraised⟩ := measureRate_bounds r env
  by_cases hslow : VerySlow r env
  · have hmax := hlowered hslow
    refine ⟨⟨?_, ?_, ?_⟩, hmin ▸ h.floor, hflex.trans h.flexibility⟩
    · rw [hmin, hwindow]
      exact h.least
    · rw [hwindow, hmax]
      exact hlow hslow
    · rw [hmax]
      decide
  · exact h.raised hwindow hmin hflex (hraised hslow)

/-- The window grows as it would before the part is stored. -/
theorem window_grown (r : Resource) (data : Bytes) :
    (r.storeInWindow fullHash data).growWindow.window = r.growWindow.window := by
  have hsame := storeInWindow_sameBounds fullHash r data
  unfold Resource.growWindow
  rw [hsame.window, hsame.windowMax]
  split
  · rfl
  · exact hsame.window

/-- The part ends a window. -/
def EndsWindow (fullHash : Bytes → Digest) (r : Resource) (data : Bytes) : Prop :=
  r.status ≠ .failed ∧
    ¬((r.storeInWindow fullHash data).receivedCount = (r.storeInWindow fullHash data).totalParts ∧
      ¬(r.storeInWindow fullHash data).assemblyLock) ∧
    (r.storeInWindow fullHash data).outstandingParts = 0

theorem demotes_iff : Demotes fullHash r data env ↔ EndsWindow fullHash (r.beginPart env) data ∧
    VerySlow ((r.beginPart env).storeInWindow fullHash data).growWindow env := by
  have hstored := storeInWindow_sameRates fullHash (r.beginPart env) data
  have hrates := hstored.trans (growWindow_sameRates _)
  obtain ⟨hreqSent, hverySlow, hlock⟩ := beginPart_rates r env
  unfold Demotes EndsWindow VerySlow
  rw [hrates.reqSent, hrates.fastRateRounds, hrates.verySlowRateRounds, hstored.assemblyLock,
    hreqSent, hverySlow, hlock, Bool.not_eq_true]
  constructor
  · rintro ⟨hstatus, hrest, houtstanding, hsent, hsince, hrounds, hfast, hslow, hsecond⟩
    exact ⟨⟨hstatus, hrest, houtstanding⟩, hsent, hsince, hrounds, hfast, hslow, hsecond⟩
  · rintro ⟨⟨hstatus, hrest, houtstanding⟩, hsent, hsince, hrounds, hfast, hslow, hsecond⟩
    exact ⟨hstatus, hrest, houtstanding, hsent, hsince, hrounds, hfast, hslow, hsecond⟩

/-- A part that ends a window. -/
theorem receivePart_ends (h : EndsWindow fullHash (r.beginPart env) data) :
    (r.receivePart fullHash data env).1 =
        ((r.beginPart env).storeInWindow fullHash data).growWindow.measureRate env ∧
      (r.receivePart fullHash data env).2.1 = [] := by
  obtain ⟨hstatus, hrest, houtstanding⟩ := h
  unfold receivePart
  dsimp only
  rw [if_neg hstatus, if_neg hrest, if_pos houtstanding]
  exact ⟨rfl, rfl⟩

/-- A part that does not end a window. -/
theorem receivePart_goes (h : ¬EndsWindow fullHash (r.beginPart env) data) :
    SameBounds (r.beginPart env) (r.receivePart fullHash data env).1 ∧
      ∀ copy ∈ assemblies (r.receivePart fullHash data env).2.1,
        SameBounds (r.beginPart env) copy := by
  have hstored := storeInWindow_sameBounds fullHash (r.beginPart env) data
  unfold receivePart
  dsimp only
  split
  · exact ⟨SameBounds.refl _, by simp [assemblies]⟩
  rename_i hstatus
  split
  · have hassembly : SameBounds (r.beginPart env)
        ((r.beginPart env).storeInWindow fullHash data).startAssembly :=
      hstored.trans ⟨rfl, rfl, rfl, rfl⟩
    exact ⟨hassembly, by simpa [assemblies] using hassembly⟩
  rename_i hrest
  split
  · rename_i houtstanding
    exact absurd ⟨hstatus, hrest, houtstanding⟩ h
  · exact ⟨hstored, by simp [assemblies]⟩

theorem Ranged.receivePart (h : Ranged r)
    (hok : Demotes fullHash r data env → (r.beginPart env).growWindow.window ≤ windowMaxVerySlow) :
    Ranged (r.receivePart fullHash data env).1 ∧
      ∀ copy ∈ assemblies (r.receivePart fullHash data env).2.1, Ranged copy := by
  have hbegun := h.beginPart env
  by_cases hends : EndsWindow fullHash (r.beginPart env) data
  · obtain ⟨hresource, heffects⟩ := receivePart_ends hends
    rw [hresource, heffects]
    have hstored := storeInWindow_sameBounds fullHash (r.beginPart env) data
    have hgrown := (hbegun.of_same hstored).growWindow
    refine ⟨hgrown.measureRate fun hslow => ?_, by simp [assemblies]⟩
    rw [window_grown]
    exact hok (demotes_iff.mpr ⟨hends, hslow⟩)
  · obtain ⟨hsame, hcopies⟩ := receivePart_goes hends
    exact ⟨hbegun.of_same hsame, fun copy hcopy => hbegun.of_same (hcopies copy hcopy)⟩

/-- A bound that is lowered under a larger window is out of order. -/
theorem not_inBounds_of_demotes (hdemotes : Demotes fullHash r data env)
    (hlarge : windowMaxVerySlow < (r.beginPart env).growWindow.window) :
    ¬InBounds (r.receivePart fullHash data env).1 := by
  obtain ⟨hends, hslow⟩ := demotes_iff.mp hdemotes
  obtain ⟨hwindow, -, -, hlowered, -⟩ :=
    measureRate_bounds ((r.beginPart env).storeInWindow fullHash data).growWindow env
  intro h
  have hmost := h.most
  rw [(receivePart_ends hends).1, hwindow, hlowered hslow, window_grown] at hmost
  exact absurd hmost (Nat.not_le.mpr hlarge)

end Resources

/-! ## The link -/

section Link

variable {fullHash} {s s' : Receiving} {event : LinkEvent} {r : Resource}

/-- The invariant of a link on which the condition is met. -/
structure RangedLink (s : Receiving) : Prop where
  last : ∀ window, s.lastResourceWindow = some window → initialWindowMin ≤ window
  ranged : ∀ r ∈ s.resources, Ranged r

theorem rangedLink_fresh : RangedLink Receiving.fresh :=
  ⟨fun _ h => (by cases h), fun _ h => absurd h List.not_mem_nil⟩

theorem RangedLink.ordered (h : RangedLink s) : WindowsOrdered s :=
  fun r hr => ⟨(h.ranged r hr).toInBounds, (h.ranged r hr).noUnderflow⟩

theorem RangedLink.inherits (h : RangedLink s) :
    initialWindowMin ≤ s.lastResourceWindow.getD initialWindow := by
  cases hlast : s.lastResourceWindow with
  | none => exact (by decide : initialWindowMin ≤ initialWindow)
  | some window => exact h.last window hlast

theorem RangedLink.put (h : RangedLink s) {i : Nat} {effects : List Effect} (hr : Ranged r)
    (hcopies : ∀ copy ∈ assemblies effects, Ranged copy) : RangedLink (s.put i r effects) := by
  refine ⟨h.last, fun r' hr' => ?_⟩
  rcases List.mem_append.mp hr' with hset | hcopy
  · rcases List.mem_or_eq_of_mem_set hset with hold | rfl
    · exact h.ranged r' hold
    · exact hr
  · exact hcopies r' hcopy

/-! ### Which operations start an assembly -/

theorem assemblies_requestNext (r : Resource) (env : Readings) :
    assemblies (r.requestNext env).2 = [] := by
  unfold requestNext
  split
  · rfl
  · split
    · rfl
    · exact (cancel_facts _ env).2.2.2.1

theorem assemblies_hashmapUpdatePacket (r : Resource) (update : Option (Nat × Bytes))
    (env : Readings) : assemblies (r.hashmapUpdatePacket update env).2.1 = [] := by
  unfold hashmapUpdatePacket
  split
  · dsimp only
    split
    · unfold hashmapUpdate
      split
      · rfl
      · dsimp only
        split
        · exact (cancel_facts _ env).2.2.2.1
        · rfl
    · rfl
  · rfl

theorem assemblies_watchdog (r : Resource) (env : Readings) :
    assemblies (r.watchdog env).2 = [] := by
  have hcancel : ∀ r' : Resource, assemblies (r'.cancel env).2 = [] :=
    fun r' => (cancel_facts r' env).2.2.2.1
  unfold Resource.watchdog
  split
  · rfl
  split
  · exact hcancel r
  split
  · rfl
  split
  · split
    · exact hcancel r
    · dsimp only
      split
      · rfl
      · exact hcancel _
  · split
    · exact hcancel r
    · split
      · exact assemblies_requestNext _ env
      · exact hcancel r
  · split
    · exact hcancel r
    · rfl
  · rfl

/-! ### Events -/

/-- A resource takes an operation that starts no assembly. -/
theorem RangedLink.act (h : RangedLink s) {i : Nat} (op : Resource → Resource × List Effect)
    (hop : ∀ r, Ranged r → Ranged (op r).1 ∧ assemblies (op r).2 = [])
    (hstep : s.resources[i]?.map (fun r => s.put i (op r).1 (op r).2) = some s') :
    RangedLink s' := by
  obtain ⟨r, hr, rfl⟩ := Option.map_eq_some_iff.mp hstep
  obtain ⟨hranged, hnone⟩ := hop r (h.ranged r (List.mem_of_getElem? hr))
  apply h.put hranged
  rw [hnone]
  exact fun copy hcopy => absurd hcopy List.not_mem_nil

theorem RangedLink.step (h : RangedLink s) (hok : KeepsBounds fullHash s event)
    (hstep : s.step fullHash event = some s') : RangedLink s' := by
  cases event with
  | accept adv callback =>
      obtain ⟨r, haccept, rfl⟩ := Option.map_eq_some_iff.mp hstep
      have hsize : adv.t ≤ maxEfficientSize * 3 := by
        by_contra hlarge
        unfold Resource.accept at haccept
        rw [if_pos (not_le.mp hlarge)] at haccept
        cases haccept
      refine ⟨h.last, fun r' hr' => ?_⟩
      rcases List.mem_append.mp hr' with hold | hnew
      · exact h.ranged r' hold
      · obtain rfl := List.mem_singleton.mp hnew
        exact ranged_accept haccept h.inherits (hok hsize)
  | part i data env =>
      obtain ⟨r, hr, rfl⟩ := Option.map_eq_some_iff.mp hstep
      obtain ⟨hranged, hcopies⟩ := (h.ranged r (List.mem_of_getElem? hr)).receivePart (hok r hr)
      exact h.put hranged hcopies
  | hashmapUpdate i update env =>
      exact h.act (fun r => ((r.hashmapUpdatePacket update env).1,
        (r.hashmapUpdatePacket update env).2.1)) (fun r hr =>
          ⟨hr.of_same (hashmapUpdatePacket_sameBounds r update env),
            assemblies_hashmapUpdatePacket r update env⟩) hstep
  | requestNext i env =>
      exact h.act (fun r => r.requestNext env) (fun r hr =>
        ⟨hr.of_same (requestNext_sameBounds r env), assemblies_requestNext r env⟩) hstep
  | watchdog i env =>
      exact h.act (fun r => r.watchdog env) (fun r hr =>
        ⟨hr.watchdog env, assemblies_watchdog r env⟩) hstep
  | cancel i env =>
      exact h.act (fun r => r.cancel env) (fun r hr =>
        ⟨hr.of_same (cancel_sameBounds r env), (cancel_facts r env).2.2.2.1⟩) hstep
  | concluded i =>
      obtain ⟨r, hr, rfl⟩ := Option.map_eq_some_iff.mp hstep
      refine ⟨fun window hwindow => ?_, h.ranged⟩
      obtain rfl := Option.some.inj hwindow
      have hranged := h.ranged r (List.mem_of_getElem? hr)
      exact hranged.floor.trans hranged.least
  | sentConcluded =>
      obtain rfl := Option.some.inj hstep
      refine ⟨fun window hwindow => ?_, h.ranged⟩
      obtain rfl := Option.some.inj hwindow
      decide

/-- An event that does not meet the condition puts a window out of order. -/
theorem not_ordered_of_not_keepsBounds (hbad : ¬KeepsBounds fullHash s event)
    (hstep : s.step fullHash event = some s') : ¬WindowsOrdered s' := by
  cases event with
  | accept adv callback =>
      obtain ⟨hsize, hlarge⟩ := Classical.not_imp.mp hbad
      obtain ⟨r, haccept, rfl⟩ := Option.map_eq_some_iff.mp hstep
      intro hordered
      have hmost := (hordered r (List.mem_append_right _ (List.mem_singleton_self r))).1.most
      unfold Resource.accept at haccept
      rw [if_neg (not_lt.mpr hsize)] at haccept
      cases haccept
      exact hlarge hmost
  | part i data env =>
      simp only [KeepsBounds, not_forall, not_le] at hbad
      obtain ⟨r, hr, hdemotes, hlarge⟩ := hbad
      obtain ⟨r', hr', rfl⟩ := Option.map_eq_some_iff.mp hstep
      obtain rfl : r = r' := Option.some.inj (hr.symm.trans hr')
      intro hordered
      have hmem : (r.receivePart fullHash data env).1 ∈ s.resources.set i
          (r.receivePart fullHash data env).1 := by
        obtain ⟨hlt, -⟩ := List.getElem?_eq_some_iff.mp hr
        exact List.mem_set hlt _
      exact not_inBounds_of_demotes hdemotes hlarge
        (hordered _ (List.mem_append_left _ hmem)).1
  | _ => exact absurd True.intro hbad

/-- On a link without a resource so far, whatever is advertised, received, asked for, timed out or
cancelled, the bounds of every receiver's window stay in order and no subtraction underflows if and
only if each resource inherits at most `WINDOW_MAX_SLOW` and no bound is lowered under a larger
window. -/
theorem windows_ordered_iff (fullHash : Bytes → Digest) (events : List LinkEvent) :
    Always (Receiving.step fullHash) WindowsOrdered Receiving.fresh events ↔
      Meets (Receiving.step fullHash) (KeepsBounds fullHash) Receiving.fresh events :=
  always_iff_meets (I := RangedLink) (fun _ h => h.ordered)
    (fun _ _ _ h hok hstep => h.step hok hstep)
    (fun _ _ _ _ hbad hstep => not_ordered_of_not_keepsBounds hbad hstep) rangedLink_fresh events

/-- A hash under which all parts look alike. -/
def sameHash (_ : Bytes) : Digest := ⟨List.replicate 32 1, rfl⟩

/-- The map hash of every part under `sameHash`. -/
def sameMapHash : MapHash := ⟨[1, 1, 1, 1], rfl⟩

/-- The readings of a very slow transfer. -/
def slowReadings : Readings where
  linkActive := true
  linkDown := false
  timedOut := false
  sendOk := true
  carried := fun _ => true
  linkRttKnown := true
  rttPositive := true
  respRateFast := false
  sinceRequest := true
  dataRateFast := false
  dataRateVerySlow := true

/-- Two windows of a resource of twenty parts come very slowly. -/
def slowTransfer : List LinkEvent :=
  [.accept { t := 20, n := 20, h := sameHash [], r := [0, 0, 0, 0], i := 1, l := 1
             m := Bytes.ofBlocks (List.replicate 20 sameMapHash)
             e := false, c := false, x := false } false,
    .requestNext 0 slowReadings, .part 0 [0] slowReadings,
    .requestNext 0 slowReadings, .part 0 [0] slowReadings]

/-- The window has grown from 4 to 6 when the bound is lowered to 4. -/
theorem windows_ordered_false : ¬∀ fullHash events,
    Always (Receiving.step fullHash) WindowsOrdered Receiving.fresh events := by
  intro h
  obtain ⟨s, hrun, hlarge⟩ : ∃ s,
      exec (Receiving.step sameHash) Receiving.fresh slowTransfer = some s ∧
        s.resources.any (fun r => decide (r.windowMax < r.window)) :=
    ⟨_, rfl, by decide +kernel⟩
  obtain ⟨r, hr, hwindow⟩ := List.any_eq_true.mp hlarge
  have hmost := (h sameHash slowTransfer _ _ (List.prefix_refl _) hrun r hr).1.most
  exact absurd hmost (Nat.not_le.mpr (of_decide_eq_true hwindow))

end Link

end Reticulum.Resource
