/-
Nrf54Sniffer.Lib.MergedStreams — several packers behind one link.

Each packer has frames of its own, and the link gets them merged into one log,
kept here with the sender beside each frame. `readOwn` is the reader that reads
one sender's frames and passes over the others. What a packer adds to its own
frames it adds for that reader to the log (`Forwards.own`); what another sender
adds, the reader does not see (`Forwards.other`). So each packer's items are
followed through the one log, up to what comes of them when some frames are
refused and some have not arrived yet (`Forwards.delivers`).
-/
import Nrf54Sniffer.Lib.PackedStream

namespace Nrf54Sniffer.Lib

variable {ι φ β : Type}

/-- Frames with their sender. -/
def sentBy (who : ι) (fs : List φ) : List (ι × φ) := fs.map fun f => (who, f)

@[simp] theorem sentBy_frames (who : ι) (fs : List φ) : (sentBy who fs).map Prod.snd = fs := by
  simp [sentBy, Function.comp_def]

/-- What holds of one sender's frames, after some more of anyone's. -/
theorem forall_append_sentBy {P : φ → Prop} {who me : ι} {log : List (ι × φ)} {fs : List φ}
    (h : ∀ c ∈ log, c.1 = who → P c.2) (hnew : me = who → ∀ f ∈ fs, P f) :
    ∀ c ∈ log ++ sentBy me fs, c.1 = who → P c.2 := by
  intro c hmem hwho
  rcases List.mem_append.mp hmem with hmem | hmem
  · exact h c hmem hwho
  · obtain ⟨f, hf, rfl⟩ := List.mem_map.mp hmem
    exact hnew hwho f hf

/-- Two lists that agree by parts, side by side. -/
theorem paired {α β γ : Type} {f : α → γ} {g : β → γ} {xs : List α} {ys : List β}
    (h : xs.map f = ys.map g) :
    ∃ zs : List (α × β), zs.map Prod.fst = xs ∧ zs.map Prod.snd = ys ∧
      ∀ z ∈ zs, f z.1 = g z.2 := by
  induction xs generalizing ys with
  | nil =>
      obtain rfl := List.map_eq_nil_iff.mp h.symm
      exact ⟨[], rfl, rfl, by simp⟩
  | cons x xs ih =>
      cases ys with
      | nil => cases h
      | cons y ys =>
          simp only [List.map_cons, List.cons.injEq] at h
          obtain ⟨zs, hfst, hsnd, hall⟩ := ih h.2
          exact ⟨(x, y) :: zs, by simp [hfst], by simp [hsnd], by simpa [h.1] using hall⟩

variable [DecidableEq ι] {decode : φ → Option (List β)}

/-- One sender's frames read, the others passed over. -/
def readOwn (me : ι) (decode : φ → Option (List β)) (c : ι × φ) : Option (List β) :=
  if c.1 = me then decode c.2 else some []

theorem decodeAll_own (me : ι) (fs : List φ) :
    decodeAll (readOwn me decode) (sentBy me fs) = decodeAll decode fs := by
  induction fs with
  | nil => rfl
  | cons f fs ih =>
      simp only [sentBy] at ih
      simp [sentBy, decodeAll, readOwn, ih]

theorem decodeAll_other {me who : ι} (hwho : who ≠ me) (fs : List φ) :
    decodeAll (readOwn me decode) (sentBy who fs) = some [] := by
  induction fs with
  | nil => rfl
  | cons f fs ih =>
      simp only [sentBy] at ih
      simp [sentBy, decodeAll, readOwn, hwho, ih]

namespace Forwards

variable {inside inside' new : List β}

/-- A packer's frames go into the log under its name. -/
theorem own {good : φ → Prop} {before after : List φ}
    (h : Forwards decode good before after inside inside' new) (me : ι) :
    ∃ fs, after = before ++ fs ∧ ∀ log : List (ι × φ),
      Forwards (readOwn me decode) (fun _ => True) log (log ++ sentBy me fs) inside inside' new := by
  obtain ⟨fs, done, heq, _, hdone, hitems⟩ := h
  refine ⟨fs, heq, fun log => ⟨sentBy me fs, done, rfl, by simp, ?_, hitems⟩⟩
  rw [decodeAll_own]
  exact hdone

/-- The frames of another sender. -/
theorem other {me who : ι} (hwho : who ≠ me) (log : List (ι × φ)) (fs : List φ) :
    Forwards (readOwn me decode) (fun _ => True) log (log ++ sentBy who fs) inside inside [] :=
  ⟨sentBy who fs, [], rfl, by simp, decodeAll_other hwho fs, by simp⟩

/-- **A packer's items arrive in order, or are accounted for.** Of a log some
frames are refused, and the first `n` of the others have arrived. The items of
those, of the ones to come and of the open batch are what went in, in order,
less the items of the refused ones; and with these they are all of it. -/
theorem delivers {me : ι} {log : List ((ι × φ) × Bool)}
    (h : Forwards (readOwn me decode) (fun _ => True) [] (log.map Prod.fst) [] inside new)
    (n : Nat) :
    ∃ recs waiting lost,
      decodeAll (readOwn me decode) ((keptFrames true log).take n) = some recs ∧
      decodeAll (readOwn me decode) ((keptFrames true log).drop n) = some waiting ∧
      decodeAll (readOwn me decode) (keptFrames false log) = some lost ∧
      (recs ++ waiting ++ inside).Sublist new ∧ (recs ++ waiting ++ lost ++ inside).Perm new := by
  obtain ⟨items, hdec, rfl, _⟩ := h.total
  obtain ⟨kept, lost, hkept, hlost, hsub, hperm⟩ := decodeAll_kept hdec
  rw [← List.take_append_drop n (keptFrames true log)] at hkept
  obtain ⟨recs, waiting, hrecs, hwaiting, rfl⟩ := decodeAll_append_eq_some hkept
  exact ⟨recs, waiting, lost, hrecs, hwaiting, hlost, hsub.append (.refl _), hperm.append_right _⟩

end Forwards

end Nrf54Sniffer.Lib
