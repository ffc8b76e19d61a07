/-
Nrf54Sniffer.Lib.PackedStream — a packer as a transformer of streams: items
go in, frames come out, and some items are still inside.

`decodeAll` reads a list of frames back with a strict per-frame reader.
`Forwards` relates the frames and the open items before and after some work to
the items that went in during it: the frames added read back, and what they
read back as, followed by what is open now, is what was open before followed
by what went in. `Forwards.trans` composes it along a run and `Forwards.total`
reads off the whole: nothing lost, reordered or invented.

Where some of the frames are refused on the way, `decodeAll_kept` says what
comes of the items: those of the frames that were kept arrive in their order,
and with those of the others they are all there were.
-/

namespace Nrf54Sniffer.Lib

variable {φ β : Type}

/-- Every frame read in order, or nothing when one is refused. -/
def decodeAll (decode : φ → Option (List β)) : List φ → Option (List β)
  | [] => some []
  | f :: fs => do
      let items ← decode f
      let more ← decodeAll decode fs
      some (items ++ more)

theorem decodeAll_append (decode : φ → Option (List β)) (fs gs : List φ) (xs ys : List β)
    (hf : decodeAll decode fs = some xs) (hg : decodeAll decode gs = some ys) :
    decodeAll decode (fs ++ gs) = some (xs ++ ys) := by
  induction fs generalizing xs with
  | nil => cases hf; simpa using hg
  | cons f fs ih =>
      simp only [decodeAll, Option.bind_eq_bind, Option.bind_eq_some_iff] at hf
      obtain ⟨items, hi, more, hm, heq⟩ := hf
      cases heq
      simp [decodeAll, hi, ih more hm]

/-- Frames that read back do so part by part. -/
theorem decodeAll_append_eq_some {decode : φ → Option (List β)} {fs gs : List φ} {zs : List β}
    (h : decodeAll decode (fs ++ gs) = some zs) :
    ∃ xs ys, decodeAll decode fs = some xs ∧ decodeAll decode gs = some ys ∧ zs = xs ++ ys := by
  induction fs generalizing zs with
  | nil => exact ⟨[], zs, rfl, h, rfl⟩
  | cons f fs ih =>
      simp only [List.cons_append, decodeAll, Option.bind_eq_bind, Option.bind_eq_some_iff] at h
      obtain ⟨items, hf, more, hmore, heq⟩ := h
      cases heq
      obtain ⟨xs, ys, hfs, hgs, rfl⟩ := ih hmore
      exact ⟨items ++ xs, ys, by simp [decodeAll, hf, hfs], hgs, by rw [List.append_assoc]⟩

/-- The frames of a log that were kept, or that were not. -/
def keptFrames (kept : Bool) (log : List (φ × Bool)) : List φ :=
  (log.filter fun c => c.2 == kept).map Prod.fst

theorem keptFrames_append (kept : Bool) (log log' : List (φ × Bool)) :
    keptFrames kept (log ++ log') = keptFrames kept log ++ keptFrames kept log' := by
  simp [keptFrames]

/-- A kept frame is in the log, after the kept frames before it. -/
theorem keptFrames_getElem? {kept : Bool} {log : List (φ × Bool)} {i : Nat} {f : φ}
    (h : (keptFrames kept log)[i]? = some f) :
    ∃ before after, log = before ++ (f, kept) :: after ∧
      keptFrames kept before = (keptFrames kept log).take i := by
  induction log generalizing i with
  | nil => simp [keptFrames] at h
  | cons c log ih =>
      obtain ⟨g, ok⟩ := c
      by_cases hok : ok = kept
      · subst hok
        have hframes : keptFrames ok ((g, ok) :: log) = g :: keptFrames ok log := by
          simp [keptFrames]
        rw [hframes] at h ⊢
        cases i with
        | zero =>
            cases h
            exact ⟨[], log, rfl, rfl⟩
        | succ i =>
            obtain ⟨before, after, rfl, hbefore⟩ := ih h
            refine ⟨(g, ok) :: before, after, rfl, ?_⟩
            rw [List.take_succ_cons, ← hbefore]
            simp [keptFrames]
      · have hframes : keptFrames kept ((g, ok) :: log) = keptFrames kept log := by
          simp [keptFrames, hok]
        rw [hframes] at h ⊢
        obtain ⟨before, after, rfl, hbefore⟩ := ih h
        refine ⟨(g, ok) :: before, after, rfl, ?_⟩
        rw [← hbefore]
        simp [keptFrames, hok]

/-- Kept frames bring their items in order, and what is missing is in the
others. -/
theorem decodeAll_kept {decode : φ → Option (List β)} {log : List (φ × Bool)} {items : List β}
    (h : decodeAll decode (log.map Prod.fst) = some items) :
    ∃ kept lost, decodeAll decode (keptFrames true log) = some kept ∧
      decodeAll decode (keptFrames false log) = some lost ∧
      kept.Sublist items ∧ (kept ++ lost).Perm items := by
  induction log generalizing items with
  | nil =>
      cases h
      exact ⟨[], [], rfl, rfl, .refl _, .refl _⟩
  | cons c log ih =>
      simp only [List.map_cons, decodeAll, Option.bind_eq_bind, Option.bind_eq_some_iff] at h
      obtain ⟨first, hfirst, more, hmore, heq⟩ := h
      cases heq
      obtain ⟨kept, lost, hkept, hlost, hsub, hperm⟩ := ih hmore
      obtain ⟨f, ok⟩ := c
      cases ok with
      | true =>
          refine ⟨first ++ kept, lost, ?_, hlost, (List.Sublist.refl first).append hsub, ?_⟩
          · have hframes : keptFrames true ((f, true) :: log) = f :: keptFrames true log := rfl
            rw [hframes, decodeAll, hfirst, hkept]
            rfl
          · rw [List.append_assoc]
            exact hperm.append_left first
      | false =>
          refine ⟨kept, first ++ lost, hkept, ?_, hsub.trans (List.sublist_append_right _ _), ?_⟩
          · have hframes : keptFrames false ((f, false) :: log) = f :: keptFrames false log := rfl
            rw [hframes, decodeAll, hfirst, hlost]
            rfl
          · have hswap : (kept ++ (first ++ lost)).Perm (first ++ (kept ++ lost)) := by
              rw [← List.append_assoc, ← List.append_assoc]
              exact List.perm_append_comm.append_right lost
            exact hswap.trans (hperm.append_left first)

/-- The frames went from `before` to `after`, each new one `good`, and the open
items from `inside` to `inside'` while the items `new` went in. -/
def Forwards (decode : φ → Option (List β)) (good : φ → Prop) (before after : List φ)
    (inside inside' new : List β) : Prop :=
  ∃ fs done, after = before ++ fs ∧ (∀ f ∈ fs, good f) ∧ decodeAll decode fs = some done ∧
    done ++ inside' = inside ++ new

namespace Forwards

variable {decode : φ → Option (List β)} {good : φ → Prop} {before mid after : List φ}
variable {inside inside' inside'' new new' : List β}

/-- Items that go in and stay inside. -/
theorem keep (frames : List φ) (inside new : List β) :
    Forwards decode good frames frames inside (inside ++ new) new :=
  ⟨[], [], by simp, by simp, rfl, rfl⟩

/-- Nothing happened. -/
theorem refl (frames : List φ) (inside : List β) :
    Forwards decode good frames frames inside inside [] :=
  ⟨[], [], by simp, by simp, rfl, by simp⟩

/-- Everything inside goes out in one frame. -/
theorem emit (frames : List φ) {f : φ} (hf : decode f = some inside) (hgood : good f) :
    Forwards decode good frames (frames ++ [f]) inside [] [] :=
  ⟨[f], inside, rfl, by simpa using hgood, by simp [decodeAll, hf], by simp⟩

theorem trans (h : Forwards decode good before mid inside inside' new)
    (h' : Forwards decode good mid after inside' inside'' new') :
    Forwards decode good before after inside inside'' (new ++ new') := by
  obtain ⟨fs, done, rfl, hg, hd, heq⟩ := h
  obtain ⟨gs, done', rfl, hg', hd', heq'⟩ := h'
  refine ⟨fs ++ gs, done ++ done', by simp, ?_, decodeAll_append decode fs gs done done' hd hd', ?_⟩
  · intro f hf
    rcases List.mem_append.mp hf with hf | hf
    · exact hg f hf
    · exact hg' f hf
  · calc done ++ done' ++ inside''
        = done ++ (inside' ++ new') := by rw [List.append_assoc, heq']
      _ = inside ++ (new ++ new') := by rw [← List.append_assoc, heq, List.append_assoc]

/-- From a packer that had sent nothing and held nothing, the frames are good
and read back, and what they hold and what is open is exactly what went in. -/
theorem total (h : Forwards decode good [] after [] inside' new) :
    ∃ done, decodeAll decode after = some done ∧ done ++ inside' = new ∧ ∀ f ∈ after, good f := by
  obtain ⟨fs, done, rfl, hg, hd, heq⟩ := h
  exact ⟨done, by simpa using hd, by simpa using heq, by simpa using hg⟩

end Forwards

end Nrf54Sniffer.Lib
