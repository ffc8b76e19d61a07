/-
Nrf54Sniffer.Radio154.ThreadTheorems — when a packet carries the channel it was
heard on.

A packet is tagged with `current_channel` when it is added, and was heard
before. The two agree along every run whose steps are `Settled`
(`tags_right_of_settled`), and not along every run: a frame still queued when
SET_CHANNEL stores the new channel is tagged with it
(`queued_frame_changes_channel`).

`Tagged` is the invariant. Between a retune and its store it tells the frames
heard before the retune from those heard since, and while `measuring` holds it
says nothing about the queue; the condition on the step that ends such a stretch
gives it back.
-/
import Nrf54Sniffer.Radio154.Threads

namespace Nrf54Sniffer.Radio154

open Nrf54Sniffer.Lib
open Nrf54Sniffer.Wire

/-! ## What driver calls change -/

/-- Only `set_channel` retunes. -/
theorem call_tuned (r : Radio) (c : Call) (h : ∀ channel, c ≠ .setChannel channel) :
    (r.call c).1.driver.tuned = r.driver.tuned := by
  show (if r.driver.answers r.driver.log.length = 0 then r.driver.apply c else r.driver).tuned = _
  split
  · cases c with
    | setChannel channel => exact absurd rfl (h channel)
    | start => rfl
    | stop => rfl
    | edScan ms => rfl
  · rfl

/-- A `set_channel` the driver takes retunes it. -/
theorem call_setChannel_tuned (r : Radio) (channel : UInt8)
    (h : (r.call (.setChannel channel)).2 = 0) :
    (r.call (.setChannel channel)).1.driver.tuned = channel := by
  have h : r.driver.answers r.driver.log.length = 0 := h
  show (if r.driver.answers r.driver.log.length = 0 then r.driver.apply _ else r.driver).tuned = _
  rw [if_pos h]
  rfl

/-- One it refuses does not. -/
theorem call_setChannel_refused (r : Radio) (channel : UInt8)
    (h : (r.call (.setChannel channel)).2 ≠ 0) :
    (r.call (.setChannel channel)).1.driver.tuned = r.driver.tuned := by
  have h : r.driver.answers r.driver.log.length ≠ 0 := h
  show (if r.driver.answers r.driver.log.length = 0 then r.driver.apply _ else r.driver).tuned = _
  rw [if_neg h]

/-! ## The invariant -/

/-- Between the driver's retune and the store of `current_channel`. -/
def Control.retuned : Control → Option UInt8
  | .store channel => some channel
  | _ => none

/-- While a measurement is being taken. -/
def Control.away : Control → Bool
  | .edTune .. | .edReceive .. | .edScan .. | .edBack .. | .edResume .. | .edClear => true
  | _ => false

/-- Every tag so far is right, and, outside the two stretches, so will be those
of the frames waiting. -/
structure Tagged (s : State) : Prop where
  added : ∀ a ∈ s.added, a.packet.channel = a.heardOn
  full : ∀ f ∈ s.held, f.pkt.psdu ≠ []
  measuring : s.radio.measuring = s.control.away
  retuned : ∀ channel, s.control.retuned = some channel → s.radio.driver.tuned = channel
  before : ∀ channel, s.control.retuned = some channel → ∀ f ∈ s.waiting,
    f.On s.radio.currentChannel ∨ s.radio.driver.log.length ≤ f.heardAt ∧ f.heardOn = channel
  held : s.control.retuned = none → ∀ f ∈ s.held, f.heardOn = s.radio.currentChannel
  tuned : s.control.retuned = none → s.control.away = false →
    s.radio.driver.tuned = s.radio.currentChannel
  queue : s.control.retuned = none → s.control.away = false →
    ∀ f ∈ s.queue, f.On s.radio.currentChannel

theorem tagged_initial (answers : Nat → Int) (completions : Nat → Option Completion)
    (linkAnswers : Nat → SendResult) : Tagged (initial answers completions linkAnswers) where
  added := by simp [initial]
  full := by simp [initial]
  measuring := rfl
  retuned := by simp [initial, Control.retuned]
  before := by simp [initial, Control.retuned]
  held := by simp [initial]
  tuned _ _ := rfl
  queue := by simp [initial]

theorem retuned_of_away {c : Control} (h : c.away = true) : c.retuned = none := by
  cases c <;> first | rfl | cases h

/-- Outside both stretches. -/
def Control.Plain (c : Control) : Prop := c.retuned = none ∧ c.away = false

/-- There every frame waiting is empty or was heard on the current channel. -/
theorem Tagged.waiting {s : State} (h : Tagged s) (hs : s.control.Plain) :
    ∀ f ∈ s.waiting, f.On s.radio.currentChannel := by
  intro f hf
  rcases List.mem_append.mp hf with hf | hf
  · exact .inr (h.held hs.1 f (Option.mem_toList.mp hf))
  · exact h.queue hs.1 hs.2 f hf

/-! ## The control thread -/

/-- Outside both stretches, what leaves the queue, the tags and both channels
alone keeps the invariant. -/
theorem Tagged.plain {s t : State} (h : Tagged s) (hs : s.control.Plain) (ht : t.control.Plain)
    (hradio : t.radio.measuring = s.radio.measuring ∧
      t.radio.currentChannel = s.radio.currentChannel ∧
      t.radio.driver.tuned = s.radio.driver.tuned)
    (hwait : t.added = s.added ∧ t.held = s.held ∧ t.queue = s.queue) : Tagged t where
  added := by rw [hwait.1]; exact h.added
  full := by rw [hwait.2.1]; exact h.full
  measuring := by rw [hradio.1, ht.2]; exact h.measuring.trans hs.2
  retuned := by rw [ht.1]; intro channel hc; cases hc
  before := by rw [ht.1]; intro channel hc; cases hc
  held _ := by rw [hwait.2.1, hradio.2.1]; exact h.held hs.1
  tuned _ _ := by rw [hradio.2.1, hradio.2.2]; exact h.tuned hs.1 hs.2
  queue _ _ := by rw [hwait.2.2, hradio.2.1]; exact h.queue hs.1 hs.2

theorem plain_ite {p : Prop} [Decidable p] {c c' : Control} (h : c.Plain) (h' : c'.Plain) :
    (if p then c else c').Plain := by
  split
  · exact h
  · exact h'

/-- A driver call that retunes nothing. -/
theorem Tagged.callPlain {s : State} (h : Tagged s) (c : Call) {ok failed : Control}
    (hc : ∀ channel, c ≠ .setChannel channel) (hs : s.control.Plain) (hok : ok.Plain)
    (hfailed : failed.Plain) : Tagged (callDriver s c ok failed) :=
  h.plain hs (plain_ite hok hfailed) ⟨rfl, rfl, call_tuned s.radio c hc⟩ ⟨rfl, rfl, rfl⟩

/-- A driver call during a measurement leaves the stretch open. -/
theorem Tagged.callAway {s : State} (h : Tagged s) (c : Call) {ok failed : Control}
    (haway : s.control.away = true) (hok : ok.away = true) (hfailed : failed.away = true) :
    Tagged (callDriver s c ok failed) := by
  have hnext : (callDriver s c ok failed).control.away = true := by
    show (if (s.radio.call c).2 = 0 then ok else failed).away = true
    split
    · exact hok
    · exact hfailed
  exact {
    added := h.added
    full := h.full
    measuring := by rw [hnext]; exact h.measuring.trans haway
    retuned := by rw [retuned_of_away hnext]; intro channel hc; cases hc
    before := by rw [retuned_of_away hnext]; intro channel hc; cases hc
    held := fun _ => h.held (retuned_of_away haway)
    tuned := by rw [hnext]; intro _ hc; cases hc
    queue := by rw [hnext]; intro _ hc; cases hc }

/-- The retune of SET_CHANNEL opens the stretch before the store, or, refused,
changes nothing. -/
theorem Tagged.tune {s : State} (h : Tagged s) {channel : UInt8}
    (hs : s.control = .tune channel) :
    Tagged (callDriver s (.setChannel channel) (.store channel) .idle) := by
  have hplain : s.control.Plain := by rw [hs]; exact ⟨rfl, rfl⟩
  by_cases hcall : (s.radio.call (.setChannel channel)).2 = 0
  · have hnext : (callDriver s (.setChannel channel) (.store channel) .idle).control
        = .store channel := if_pos hcall
    exact {
      added := h.added
      full := h.full
      measuring := by rw [hnext]; exact h.measuring.trans hplain.2
      retuned := by
        rw [hnext]
        intro channel' hc
        cases hc
        exact call_setChannel_tuned s.radio channel hcall
      before := fun _ _ f hf => .inl (h.waiting hplain f hf)
      held := by rw [hnext]; intro hc; cases hc
      tuned := by rw [hnext]; intro hc; cases hc
      queue := by rw [hnext]; intro hc; cases hc }
  · have hnext : (callDriver s (.setChannel channel) (.store channel) .idle).control = .idle :=
      if_neg hcall
    exact h.plain hplain (by rw [hnext]; exact ⟨rfl, rfl⟩)
      ⟨rfl, rfl, call_setChannel_refused s.radio channel hcall⟩ ⟨rfl, rfl, rfl⟩

/-- A flush changes no tag. -/
theorem Tagged.flushThen {s t : State} (h : Tagged s) {next : Control} (hs : s.control.Plain)
    (hnext : next.Plain) (hf : flushThen s next = some t) : Tagged t := by
  obtain ⟨_, _, rfl⟩ := Option.map_eq_some_iff.mp hf
  exact h.plain hs hnext ⟨rfl, rfl, rfl⟩ ⟨rfl, rfl, rfl⟩

/-- The store, with nothing waiting that was heard elsewhere, closes the
stretch. -/
theorem Tagged.store {s : State} (h : Tagged s) {channel : UInt8}
    (hs : s.control = .store channel) (hwait : ∀ f ∈ s.waiting, f.On channel) :
    Tagged (s.goto { s.radio with currentChannel := channel } .begin) where
  added := h.added
  full := h.full
  measuring := h.measuring.trans (by rw [hs]; rfl)
  retuned := by intro channel' hc; cases hc
  before := by intro channel' hc; cases hc
  held _ f hf := (hwait f (List.mem_append_left _ (Option.mem_toList.mpr hf))).resolve_left
    (h.full f hf)
  tuned _ _ := h.retuned channel (by rw [hs]; rfl)
  queue _ _ f hf := hwait f (List.mem_append_right _ hf)

/-- The end of a measurement, with the driver back and nothing queued that was
heard elsewhere. -/
theorem Tagged.clear {s : State} (h : Tagged s) (hs : s.control = .edClear)
    (htuned : s.radio.driver.tuned = s.radio.currentChannel)
    (hqueue : ∀ f ∈ s.queue, f.On s.radio.currentChannel) :
    Tagged (s.goto { s.radio with measuring := false } .idle) where
  added := h.added
  full := h.full
  measuring := rfl
  retuned := by intro channel hc; cases hc
  before := by intro channel hc; cases hc
  held _ := h.held (by rw [hs]; rfl)
  tuned _ _ := htuned
  queue _ _ := hqueue

/-- A command keeps the invariant when it is taken up. -/
theorem Tagged.accept {s t : State} (h : Tagged s) (hs : s.control = .idle) {op : Operation}
    (ha : accept s op = some t) : Tagged t := by
  have hplain : s.control.Plain := by rw [hs]; exact ⟨rfl, rfl⟩
  cases op with
  | setChannel channel => exact h.flushThen hplain (plain_ite ⟨rfl, rfl⟩ ⟨rfl, rfl⟩) ha
  | start =>
      cases ha
      exact h.plain hplain ⟨rfl, rfl⟩ ⟨rfl, rfl, rfl⟩ ⟨rfl, rfl, rfl⟩
  | stop =>
      cases ha
      exact h.plain hplain (plain_ite ⟨rfl, rfl⟩ ⟨rfl, rfl⟩) ⟨rfl, rfl, rfl⟩ ⟨rfl, rfl, rfl⟩
  | energyDetect channel durationSymbols =>
      simp only [Radio154.accept] at ha
      split at ha
      · cases ha
        exact h
      · cases ha
        exact {
          added := h.added
          full := h.full
          measuring := rfl
          retuned := by intro channel hc; cases hc
          before := by intro channel hc; cases hc
          held := fun _ => h.held hplain.1
          tuned := by intro _ hc; cases hc
          queue := by intro _ hc; cases hc }

/-- A step of the command in hand that meets the condition keeps the
invariant. -/
theorem Tagged.advance {s t : State} (h : Tagged s) (hset : Settled s .advance)
    (ha : advance s = some t) : Tagged t := by
  unfold Radio154.advance at ha
  cases hs : s.control with
  | idle => simp [hs] at ha
  | tune channel =>
      rw [hs] at ha
      cases ha
      exact h.tune hs
  | store channel =>
      rw [hs] at ha
      cases ha
      have hset : SettledAdvance s s.control := hset
      rw [hs] at hset
      exact h.store hs hset
  | begin =>
      rw [hs] at ha
      cases ha
      exact h.callPlain _ (by simp) (by rw [hs]; exact ⟨rfl, rfl⟩) ⟨rfl, rfl⟩ ⟨rfl, rfl⟩
  | begun =>
      rw [hs] at ha
      cases ha
      exact h.plain (by rw [hs]; exact ⟨rfl, rfl⟩) ⟨rfl, rfl⟩ ⟨rfl, rfl, rfl⟩ ⟨rfl, rfl, rfl⟩
  | halt =>
      rw [hs] at ha
      cases ha
      exact h.callPlain _ (by simp) (by rw [hs]; exact ⟨rfl, rfl⟩) ⟨rfl, rfl⟩ ⟨rfl, rfl⟩
  | halted =>
      rw [hs] at ha
      cases ha
      exact h.plain (by rw [hs]; exact ⟨rfl, rfl⟩) ⟨rfl, rfl⟩ ⟨rfl, rfl, rfl⟩ ⟨rfl, rfl, rfl⟩
  | flush =>
      rw [hs] at ha
      exact h.flushThen (by rw [hs]; exact ⟨rfl, rfl⟩) ⟨rfl, rfl⟩ ha
  | edTune channel ms previous wasRunning =>
      rw [hs] at ha
      cases ha
      exact h.callAway _ (by rw [hs]; rfl) rfl rfl
  | edReceive ms previous wasRunning =>
      rw [hs] at ha
      cases ha
      exact h.callAway _ (by rw [hs]; rfl) rfl rfl
  | edScan ms previous wasRunning =>
      rw [hs] at ha
      cases ha
      exact h.callAway _ (by rw [hs]; rfl) rfl rfl
  | edBack previous wasRunning =>
      rw [hs] at ha
      cases ha
      exact h.callAway _ (by rw [hs]; rfl) rfl rfl
  | edResume wasRunning =>
      rw [hs] at ha
      cases ha
      exact h.callAway _ (by rw [hs]; rfl) rfl rfl
  | edClear =>
      rw [hs] at ha
      cases ha
      have hset : SettledAdvance s s.control := hset
      rw [hs] at hset
      exact h.clear hs hset.1 hset.2

/-! ## The driver and the receive thread -/

/-- A frame is queued with the channel it was heard on. -/
theorem Tagged.hear {s : State} (h : Tagged s) (pkt : NetPkt) :
    Tagged { s with queue := s.queue ++
                      [⟨s.radio.driver.tuned, s.radio.driver.log.length, pkt⟩] } where
  added := h.added
  full := h.full
  measuring := h.measuring
  retuned := h.retuned
  before channel hr f hf := by
    rw [State.waiting, ← List.append_assoc] at hf
    rcases List.mem_append.mp hf with hf | hf
    · exact h.before channel hr f hf
    · rw [List.mem_singleton.mp hf]
      exact .inr ⟨Nat.le_refl _, h.retuned channel hr⟩
  held := h.held
  tuned := h.tuned
  queue hr ha f hf := by
    rcases List.mem_append.mp hf with hf | hf
    · exact h.queue hr ha f hf
    · rw [List.mem_singleton.mp hf]
      exact .inr (h.tuned hr ha)

/-- A frame comes off the queue and is tested. -/
theorem Tagged.deliver {s : State} (h : Tagged s) {f : Heard} {queue : List Heard}
    (hqueue : s.queue = f :: queue) :
    Tagged { s with queue, held := if admits s f then some f else none } := by
  have hheld : ∀ g, (if admits s f then some f else none) = some g → g = f ∧ admits s f = true := by
    intro g hg
    obtain ⟨hadmits, hfg⟩ := Option.ite_none_right_eq_some.mp hg
    exact ⟨(Option.some.inj hfg).symm, hadmits⟩
  exact {
    added := h.added
    full := by
      intro g hg
      obtain ⟨rfl, hadmits⟩ := hheld g hg
      simp only [admits, Bool.and_eq_true, bne_iff_ne] at hadmits
      exact hadmits.1
    measuring := h.measuring
    retuned := h.retuned
    before := by
      intro channel hr g hg
      refine h.before channel hr g (List.mem_append_right _ ?_)
      rw [hqueue]
      rcases List.mem_append.mp hg with hg | hg
      · obtain ⟨rfl, _⟩ := hheld g (Option.mem_toList.mp hg)
        exact List.mem_cons_self
      · exact List.mem_cons_of_mem f hg
    held := by
      intro hr g hg
      obtain ⟨rfl, hadmits⟩ := hheld g hg
      simp only [admits, Radio.takes, Bool.and_eq_true, bne_iff_ne, Bool.not_eq_true'] at hadmits
      have haway : s.control.away = false := by rw [← h.measuring]; exact hadmits.2.1
      exact (h.queue hr haway g (by simp [hqueue])).resolve_left hadmits.1
    tuned := h.tuned
    queue := fun hr ha g hg => h.queue hr ha g (by simp [hqueue, hg]) }

/-- The packet held is added. -/
theorem Tagged.append {s t : State} (h : Tagged s) (hset : Settled s .append) {f : Heard}
    (hf : s.held = some f) (ha : appendHeld s f = some t) : Tagged t := by
  have hchannel : s.radio.currentChannel = f.heardOn := by
    cases hr : s.control.retuned with
    | none => exact (h.held hr f (by simp [hf])).symm
    | some channel =>
        cases hs : s.control with
        | store channel =>
            simp only [Settled, SettledAppend, hs] at hset
            have hwaits : f ∈ s.waiting := by simp [State.waiting, hf]
            rcases h.before channel (by rw [hs]; rfl) f hwaits with hearlier | ⟨hsince, hon⟩
            · exact (hearlier.resolve_left (h.full f hf)).symm
            · -- heard since the retune, which was to the channel it was on
              have hsame : channel = s.radio.currentChannel := by
                refine Decidable.byContradiction fun hne => ?_
                have hearlier := hset hne f hf
                omega
              rw [hon, hsame]
        | _ => simp [hs, Control.retuned] at hr
  obtain ⟨⟨batcher, outbox⟩, _, rfl⟩ := Option.map_eq_some_iff.mp ha
  exact {
    added := by
      intro a hmem
      rcases List.mem_append.mp hmem with hmem | hmem
      · exact h.added a hmem
      · rw [List.mem_singleton.mp hmem]
        exact hchannel
    full := by simp
    measuring := h.measuring
    retuned := h.retuned
    before := fun channel hr g hg => h.before channel hr g (List.mem_append_right _ hg)
    held := by simp
    tuned := h.tuned
    queue := h.queue }

/-! ## Every run -/

/-- A settled step keeps the invariant. -/
theorem step_tagged {s t : State} {l : Label} (h : Tagged s) (hset : Settled s l)
    (hs : step s l = some t) : Tagged t := by
  cases l with
  | hear pkt =>
      obtain ⟨_, heq⟩ := Option.ite_none_right_eq_some.mp hs
      cases heq
      exact h.hear pkt
  | deliver =>
      simp only [step] at hs
      split at hs
      · rename_i hqueue
        cases hs
        exact h.deliver hqueue
      · cases hs
  | append =>
      obtain ⟨f, hf, ha⟩ := Option.bind_eq_some_iff.mp hs
      exact h.append hset hf ha
  | linger =>
      obtain ⟨_, _, rfl⟩ := Option.map_eq_some_iff.mp hs
      exact ⟨h.added, h.full, h.measuring, h.retuned, h.before, h.held, h.tuned, h.queue⟩
  | command op =>
      obtain ⟨hidle, ha⟩ := Option.ite_none_right_eq_some.mp hs
      exact h.accept hidle ha
  | advance => exact h.advance hset hs

/-- **Tags.** Along every run whose steps are settled, whatever the driver
answers, every packet passed to `sn_batch_add` carries the channel it was heard
on. -/
theorem tags_right_of_settled (answers : Nat → Int) (completions : Nat → Option Completion)
    (linkAnswers : Nat → SendResult) (labels : List Label) (s : State)
    (hset : machine.RunMeets Settled (initial answers completions linkAnswers) labels)
    (hrun : machine.run (initial answers completions linkAnswers) labels = some s) :
    ∀ a ∈ s.added, a.packet.channel = a.heardOn :=
  (machine.run_invariant_of (fun _ _ _ => step_tagged)
    (tagged_initial answers completions linkAnswers) hset hrun).added

/-! ## Uninterrupted -/

/-- The command in hand, run to its end with nothing in between. -/
def finish : Nat → State → Option State
  | 0, s => some s
  | n + 1, s => if s.control = .idle then some s else (advance s).bind (finish n)

theorem finish_idle (n : Nat) {s : State} (h : s.control = .idle) : finish n s = some s := by
  cases n with
  | zero => rfl
  | succ n => exact if_pos h

/-- A driver call, then the rest. -/
theorem finish_call (n : Nat) (s : State) (r : Radio) {k : Control} (c : Call)
    (ok failed : Control) (hk : k ≠ .idle)
    (ha : ∀ s, s.control = k → advance s = some (callDriver s c ok failed)) :
    finish (n + 1) (s.goto r k)
      = finish n (s.goto (r.call c).1 (if (r.call c).2 = 0 then ok else failed)) := by
  have hne : (s.goto r k).control ≠ .idle := hk
  rw [finish, if_neg hne, ha _ rfl]
  rfl

/-- The end of a measurement is that of `sn_radio154_energy_detect`. -/
theorem finish_edBack (n : Nat) (s : State) (r : Radio) (previous : UInt8) (wasRunning : Bool) :
    finish (n + 3) (s.goto r (.edBack previous wasRunning)) =
      some (s.goto { edRestore r previous wasRunning with measuring := false } .idle) := by
  rw [finish_call _ _ _ (.setChannel previous) (.edResume wasRunning) (.edResume wasRunning)
      (by simp) (by intro s hs; simp only [advance, hs]), ite_self,
    finish_call _ _ _ (if wasRunning then .start else .stop) .edClear .edClear
      (by simp) (by intro s hs; simp only [advance, hs]), ite_self]
  exact finish_idle n rfl

/-- So is all of it. -/
theorem finish_edTune (s : State) (r : Radio) (channel : UInt8) (ms : UInt32) (previous : UInt8)
    (wasRunning : Bool) :
    finish 6 (s.goto r (.edTune channel ms previous wasRunning)) =
      some (s.goto { edRestore (edStart r channel ms).1 previous wasRunning with measuring := false }
        .idle) := by
  rw [finish_call _ _ _ (.setChannel channel) (.edReceive ms previous wasRunning)
    (.edBack previous wasRunning) (by simp) (by intro s hs; simp only [advance, hs])]
  by_cases h₁ : (r.call (.setChannel channel)).2 = 0
  · rw [if_pos h₁, finish_call _ _ _ .start (.edScan ms previous wasRunning)
      (.edBack previous wasRunning) (by simp) (by intro s hs; simp only [advance, hs])]
    by_cases h₂ : ((r.call (.setChannel channel)).1.call .start).2 = 0
    · rw [if_pos h₂, finish_call _ _ _ (.edScan ms.toUInt16) (.edBack previous wasRunning)
        (.edBack previous wasRunning) (by simp) (by intro s hs; simp only [advance, hs]), ite_self,
        finish_edBack 0]
      simp [edStart, h₁, h₂]
    · rw [if_neg h₂, finish_edBack 1]
      simp [edStart, h₁, h₂]
  · rw [if_neg h₁, finish_edBack 2]
    simp [edStart, h₁]

/-- With no other thread in between, ENERGY_DETECT is
`sn_radio154_energy_detect`. -/
theorem finish_energyDetect (s : State) (channel : UInt8) (durationSymbols : UInt32)
    (hs : s.control = .idle) :
    ((accept s (.energyDetect channel durationSymbols)).bind (finish 6)).map State.radio
      = some (snRadio154EnergyDetect s.radio channel durationSymbols).1 := by
  simp only [accept, snRadio154EnergyDetect]
  split
  · rw [Option.bind_some, finish_idle 6 hs]
    rfl
  · rw [Option.bind_some, finish_edTune]
    rfl

/-- START is `sn_radio154_start`. -/
theorem finish_begin (n : Nat) (s : State) (r : Radio) :
    finish (n + 2) (s.goto r .begin) = some (s.goto (snRadio154Start r).1 .idle) := by
  rw [finish_call _ _ _ .start .begun .idle (by simp) (by intro s hs; simp only [advance, hs])]
  by_cases h : (r.call .start).2 = 0
  · rw [if_pos h]
    simp only [snRadio154Start, h, if_true]
    exact finish_idle n rfl
  · rw [if_neg h]
    simp only [snRadio154Start, h, if_false]
    exact finish_idle (n + 1) rfl

/-- SET_CHANNEL is the flush, `sn_radio154_set_channel` and, if that worked,
`sn_radio154_start`. -/
theorem finish_setChannel (s : State) (channel : UInt8) :
    ((accept s (.setChannel channel)).bind (finish 4)).map State.radio
      = (Batch.snBatchFlush s.batcher s.outbox).map fun _ =>
          if (snRadio154SetChannel s.radio channel).2 = 0
          then (snRadio154Start (snRadio154SetChannel s.radio channel).1).1
          else (snRadio154SetChannel s.radio channel).1 := by
  simp only [accept, flushThen]
  cases Batch.snBatchFlush s.batcher s.outbox with
  | none => rfl
  | some r =>
      simp only [Option.map_some, Option.bind_some, snRadio154SetChannel]
      split
      · rfl
      · show (finish 4 (State.goto { s with batcher := r.1, outbox := r.2 } s.radio
          (.tune channel))).map State.radio = _
        rw [finish_call _ _ _ (.setChannel channel) (.store channel) .idle (by simp)
          (by intro s hs; simp only [advance, hs])]
        by_cases h : (s.radio.call (.setChannel channel)).2 = 0
        · simp only [h, if_true]
          show (finish 2 (State.goto _ _ .begin)).map State.radio = _
          rw [finish_begin]
          rfl
        · simp only [h, if_false]
          rw [finish_idle _ rfl]
          rfl

/-- STOP is `sn_radio154_stop`, then the flush. -/
theorem finish_stop (s : State) :
    ((accept s .stop).bind (finish 3)).map (fun t => (t.radio, t.batcher, t.outbox))
      = (Batch.snBatchFlush s.batcher s.outbox).map fun r => ((snRadio154Stop s.radio).1, r) := by
  have hflush : ∀ n (r : Radio), (finish (n + 1) (s.goto r .flush)).map
      (fun t => (t.radio, t.batcher, t.outbox))
        = (Batch.snBatchFlush s.batcher s.outbox).map fun q => (r, q) := by
    intro n r
    show ((flushThen (s.goto r .flush) .idle).bind (finish n)).map _ = _
    simp only [flushThen]
    show (((Batch.snBatchFlush s.batcher s.outbox).map _).bind (finish n)).map _ = _
    cases Batch.snBatchFlush s.batcher s.outbox with
    | none => rfl
    | some q =>
        rw [Option.map_some, Option.bind_some, finish_idle n rfl]
        rfl
  show (finish 3 (s.goto s.radio (if s.radio.running then .halt else .flush))).map _ = _
  cases hrun : s.radio.running with
  | false =>
      simp only [snRadio154Stop, hrun]
      exact hflush 2 s.radio
  | true =>
      simp only [if_true]
      rw [finish_call _ _ _ .stop .halted .flush (by simp) (by intro s hs; simp only [advance, hs])]
      by_cases h : (s.radio.call .stop).2 = 0
      · simp only [snRadio154Stop, hrun, h, if_true]
        exact hflush 0 _
      · simp only [snRadio154Stop, hrun, h, if_false]
        exact hflush 1 _

/-- A delivery and its append are `net_recv_data`. -/
theorem deliver_append (s : State) (f : Heard) (queue : List Heard) (hheld : s.held = none)
    (hqueue : s.queue = f :: queue) :
    ((step s .deliver).bind fun t => if t.held = none then some t else step t .append).map
        (fun t => (t.radio, t.batcher, t.outbox))
      = (netRecvData s.radio s.batcher s.outbox (some f.pkt)).map fun r =>
          (r.1, r.2.1, r.2.2.1) := by
  simp only [step, hheld, hqueue, Option.bind_some, netRecvData]
  by_cases hempty : f.pkt.psdu = []
  · simp [admits, hempty]
  · cases htakes : s.radio.takes with
    | false => simp [admits, hempty, htakes]
    | true =>
        simp only [admits, htakes, bne_iff_ne, ne_eq, hempty, not_false_eq_true, Bool.and_true,
          if_true, reduceCtorEq, if_false, Option.bind_some, appendHeld, tag, Bool.not_true,
          Bool.false_eq_true, Option.map_map]
        rfl

/-! ## A frame still queued -/

/-- SET_CHANNEL, all the way. -/
def setChannelTo (channel : UInt8) : List Label :=
  [.command (.setChannel channel), .advance, .advance, .advance, .advance]

/-- The radio with every call taken. -/
def calmRadio : State := initial (fun _ => 0) (fun _ => none) (fun _ => .sent 0)

/-- A frame on each of two channels, the queue drained before the change. -/
def drainedRetune : List Label :=
  setChannelTo 11 ++ [.hear oneByte, .deliver, .append] ++ setChannelTo 12
    ++ [.hear oneByte, .deliver, .append]

theorem tags_right_of_settled_retune :
    ∃ s, machine.run calmRadio drainedRetune = some s ∧
      ∀ a ∈ s.added, a.packet.channel = a.heardOn := by
  obtain ⟨s, hs⟩ := Option.isSome_iff_exists.mp
    (show (machine.run calmRadio drainedRetune).isSome = true by decide +kernel)
  exact ⟨s, hs, tags_right_of_settled _ _ _ _ s (by decide +kernel) hs⟩

/-- **A queued frame changes channel.** Heard on channel 11 and still queued when
SET_CHANNEL 12 stores the new channel, a frame is added as heard on 12. -/
theorem queued_frame_changes_channel :
    ¬ ∀ (answers : Nat → Int) (completions : Nat → Option Completion)
      (linkAnswers : Nat → SendResult) (labels : List Label) (s : State),
      machine.run (initial answers completions linkAnswers) labels = some s →
        ∀ a ∈ s.added, a.packet.channel = a.heardOn := by
  intro hall
  have hrun : ((machine.run calmRadio
      (setChannelTo 11 ++ [.hear oneByte] ++ setChannelTo 12 ++ [.deliver, .append])).map
        fun s => s.added.map fun a => (a.heardOn, a.packet.channel)) = some [(11, 12)] := by
    decide +kernel
  obtain ⟨s, hs, hadded⟩ := Option.map_eq_some_iff.mp hrun
  have hright := hall _ _ _ _ s hs
  cases hlist : s.added with
  | nil => simp [hlist] at hadded
  | cons a as =>
      simp only [hlist, List.map_cons, List.cons.injEq, Prod.mk.injEq] at hadded
      have heq := hright a (by simp [hlist])
      rw [hadded.1.1, hadded.1.2] at heq
      cases heq

/-- The other way in: a frame heard on channel 20 during a measurement, still
queued when `measuring` is cleared, is added as heard on 11. -/
example : ((machine.run (initial (fun _ => 0) (fun _ => some ⟨20, -70⟩) (fun _ => .sent 0))
    (setChannelTo 11 ++ [.command (.energyDetect 20 1250), .advance, .advance, .hear oneByte,
      .advance, .advance, .advance, .advance, .deliver, .append])).map
        fun s => s.added.map fun a => (a.heardOn, a.packet.channel)) = some [(20, 11)] := by
  decide +kernel

end Nrf54Sniffer.Radio154
