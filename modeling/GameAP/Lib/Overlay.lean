import Mathlib.Data.List.Induction
import Mathlib.Data.List.Infix

/-!
# Overlays of trees

A tree is a function from paths to what is there. `overlay s d f` puts the tree below `s` over the
one below `d`: what is below `s` replaces what has the same place below `d`, and all else stays.
Putting the children of `s` over those of `d`, one after the other and in any order, is the same
(`overlayAll_eq`). `Partway K`: some of what is below `s` has been put over the tree below `d`, but
only `K` relates it to what is there. `overlays` puts several trees over one, and `PartwayAll` is a
part of that.
-/

namespace Lib

variable {κ ε : Type*} [DecidableEq κ]

def overlay (s d : List κ) (f : List κ → Option ε) : List κ → Option ε := fun p =>
  if d <+: p then (f (s ++ p.drop d.length)).or (f p) else f p

/-- The children one after the other. -/
def overlayAll (s d : List κ) (names : List κ) (f : List κ → Option ε) : List κ → Option ε :=
  names.foldl (fun f name => overlay (s ++ [name]) (d ++ [name]) f) f

/-- Neither path is below the other. -/
def Separate (s d : List κ) : Prop := ¬ s <+: d ∧ ¬ d <+: s

variable {s d p rel : List κ} {f : List κ → Option ε} {name : κ} {names : List κ}

theorem overlay_below : overlay s d f (d ++ rel) = (f (s ++ rel)).or (f (d ++ rel)) := by
  unfold overlay
  rw [if_pos (List.prefix_append d rel), List.drop_left]

theorem overlay_frame (h : ¬ d <+: p) : overlay s d f p = f p := if_neg h

omit [DecidableEq κ] in
theorem Separate.not_prefix (h : Separate s d) (x y : List κ) : ¬ d ++ x <+: s ++ y := by
  intro hp
  have hd : d <+: s ++ y := (List.prefix_append d x).trans hp
  rcases List.prefix_or_prefix_of_prefix hd (List.prefix_append s y) with hds | hsd
  · exact h.2 hds
  · exact h.1 hsd

omit [DecidableEq κ] in
theorem Separate.children (h : Separate s d) (x y : List κ) : Separate (s ++ x) (d ++ y) :=
  ⟨fun hp => Separate.not_prefix ⟨h.2, h.1⟩ x y hp, h.not_prefix y x⟩

omit [DecidableEq κ] in
theorem not_prefix_of_ne {m : κ} (h : m ≠ name) : ¬ d ++ [m] <+: d ++ name :: rel := by
  rw [List.prefix_append_right_inj, List.cons_prefix_cons]
  exact fun hp => h hp.1

/-- The source is not touched. -/
theorem overlay_source (h : Separate s d) (x y z : List κ) :
    overlay (s ++ x) (d ++ y) f (s ++ z) = f (s ++ z) :=
  overlay_frame (h.not_prefix y z)

theorem overlayAll_frame (h : ∀ name ∈ names, ¬ d ++ [name] <+: p) :
    overlayAll s d names f p = f p := by
  unfold overlayAll
  induction names generalizing f with
  | nil => rfl
  | cons name names ih =>
    rw [List.foldl_cons, ih fun n hn => h n (List.mem_cons_of_mem _ hn)]
    exact overlay_frame (h name List.mem_cons_self)

/-- What is below a name that has not been reached. -/
theorem overlayAll_notMem (h : name ∉ names) :
    overlayAll s d names f (d ++ name :: rel) = f (d ++ name :: rel) :=
  overlayAll_frame fun _ hm => not_prefix_of_ne fun he => h (he ▸ hm)

theorem overlayAll_below (h : Separate s d) (hname : name ∈ names) (hnodup : names.Nodup) :
    overlayAll s d names f (d ++ name :: rel) =
      (f (s ++ name :: rel)).or (f (d ++ name :: rel)) := by
  induction names generalizing f with
  | nil => exact absurd hname List.not_mem_nil
  | cons m names ih =>
    obtain ⟨hnotMem, hnodup⟩ := List.nodup_cons.mp hnodup
    have hstep : overlayAll s d (m :: names) f =
        overlayAll s d names (overlay (s ++ [m]) (d ++ [m]) f) := rfl
    rw [hstep]
    rcases List.mem_cons.mp hname with rfl | hmem
    · rw [overlayAll_notMem hnotMem]
      have hbelow : overlay (s ++ [name]) (d ++ [name]) f (d ++ [name] ++ rel) =
          (f (s ++ [name] ++ rel)).or (f (d ++ [name] ++ rel)) := overlay_below
      simpa only [List.append_assoc, List.singleton_append] using hbelow
    · have hne : m ≠ name := fun he => hnotMem (he ▸ hmem)
      rw [ih hmem hnodup, overlay_source h, overlay_frame (not_prefix_of_ne hne)]

/-- **The children make the whole.** -/
theorem overlayAll_eq (h : Separate s d) (hnodup : names.Nodup)
    (hroot : (f s).or (f d) = f d)
    (hnames : ∀ name rel, (f (s ++ name :: rel)).isSome → name ∈ names) :
    overlayAll s d names f = overlay s d f := by
  funext p
  by_cases hp : d <+: p
  · obtain ⟨rel, rfl⟩ := hp
    rw [overlay_below]
    cases rel with
    | nil =>
      have hframe : ∀ name ∈ names, ¬ d ++ [name] <+: d ++ [] := fun name _ hp => by
        have hle := hp.length_le
        simp only [List.length_append, List.length_singleton, List.length_nil] at hle
        omega
      rw [overlayAll_frame hframe, List.append_nil, List.append_nil, hroot]
    | cons name rel =>
      by_cases hname : name ∈ names
      · exact overlayAll_below h hname hnodup
      · have hnone : f (s ++ name :: rel) = none :=
          Option.not_isSome_iff_eq_none.mp fun hsome => hname (hnames name rel hsome)
        rw [overlayAll_notMem hname, hnone, Option.none_or]
  · rw [overlay_frame hp]
    exact overlayAll_frame fun name _ hd => hp ((List.prefix_append d [name]).trans hd)

/-! ## A part of an overlay -/

def Partway (K : ε → ε → Prop) (s d : List κ) (f g : List κ → Option ε) : Prop :=
  ∀ p, g p = f p ∨
    ∃ rel e e', p = d ++ rel ∧ f (s ++ rel) = some e ∧ g p = some e' ∧ K e e'

variable {K : ε → ε → Prop} {g h : List κ → Option ε}

omit [DecidableEq κ] in
theorem Partway.refl (K : ε → ε → Prop) (s d : List κ) (f : List κ → Option ε) :
    Partway K s d f f := fun _ => .inl rfl

omit [DecidableEq κ] in
/-- Nothing is changed outside. -/
theorem Partway.frame (hg : Partway K s d f g) (hp : ¬ d <+: p) : g p = f p := by
  obtain heq | ⟨rel, -, -, rfl, -⟩ := hg p
  · exact heq
  · exact absurd (List.prefix_append d rel) hp

omit [DecidableEq κ] in
theorem Partway.source (hg : Partway K s d f g) (hseparate : Separate s d) (rel : List κ) :
    g (s ++ rel) = f (s ++ rel) := by
  refine hg.frame fun hp => ?_
  exact hseparate.not_prefix [] rel (by rwa [List.append_nil])

omit [DecidableEq κ] in
/-- Nothing is removed. -/
theorem Partway.isSome (hg : Partway K s d f g) (hp : (f p).isSome) : (g p).isSome := by
  obtain heq | ⟨-, -, e', -, -, heq, -⟩ := hg p
  · rwa [heq]
  · rw [heq]
    rfl

omit [DecidableEq κ] in
theorem Partway.trans (hseparate : Separate s d) (hg : Partway K s d f g)
    (hh : Partway K s d g h) : Partway K s d f h := by
  intro p
  obtain heq | ⟨rel, e, e', rfl, he, he', hK⟩ := hh p
  · rw [heq]
    exact hg p
  · rw [hg.source hseparate] at he
    exact .inr ⟨rel, e, e', rfl, he, he', hK⟩

omit [DecidableEq κ] in
theorem Partway.of_child {x : List κ} (hg : Partway K (s ++ x) (d ++ x) f g) :
    Partway K s d f g := by
  intro p
  obtain heq | ⟨rel, e, e', rfl, he, he', hK⟩ := hg p
  · exact .inl heq
  · exact .inr ⟨x ++ rel, e, e', by rw [List.append_assoc], by rwa [← List.append_assoc], he', hK⟩

/-- An overlay completes its part. -/
theorem Partway.overlay_eq (hg : Partway K s d f g) (hseparate : Separate s d) :
    overlay s d g = overlay s d f := by
  funext p
  by_cases hp : d <+: p
  · obtain ⟨rel, rfl⟩ := hp
    rw [overlay_below, overlay_below, hg.source hseparate]
    obtain heq | ⟨rel', e, -, hrel, he, -⟩ := hg (d ++ rel)
    · rw [heq]
    · rw [List.append_cancel_left_eq] at hrel
      rw [hrel, he]
      rfl
  · rw [overlay_frame hp, overlay_frame hp, hg.frame hp]

/-! ## Several overlays -/

def overlays (d : List κ) (sources : List (List κ)) (f : List κ → Option ε) : List κ → Option ε :=
  sources.foldl (fun f s => overlay s d f) f

def PartwayAll (K : ε → ε → Prop) (d : List κ) (sources : List (List κ))
    (f g : List κ → Option ε) : Prop :=
  ∀ p, g p = f p ∨ ∃ s ∈ sources, ∃ rel e e', p = d ++ rel ∧ f (s ++ rel) = some e ∧
    g p = some e' ∧ K e e'

variable {sources : List (List κ)}

theorem overlays_frame (hp : ¬ d <+: p) : overlays d sources f p = f p := by
  induction sources generalizing f with
  | nil => rfl
  | cons s sources ih => exact (ih (f := overlay s d f)).trans (overlay_frame hp)

omit [DecidableEq κ] in
theorem findSome?_congr {g h : List κ → Option ε} (hgh : ∀ s ∈ sources, g s = h s) :
    sources.findSome? g = sources.findSome? h := by
  induction sources with
  | nil => rfl
  | cons s sources ih =>
    rw [List.findSome?_cons, List.findSome?_cons, hgh s List.mem_cons_self,
      ih fun s hs => hgh s (List.mem_cons_of_mem _ hs)]

/-- What the last of the trees has there is there. -/
theorem overlays_below (hseparate : ∀ s ∈ sources, Separate s d) :
    overlays d sources f (d ++ rel) =
      (sources.reverse.findSome? fun s => f (s ++ rel)).or (f (d ++ rel)) := by
  induction sources using List.reverseRecOn with
  | nil => rfl
  | append_singleton sources s ih =>
    have hlast : overlays d (sources ++ [s]) f = overlay s d (overlays d sources f) :=
      List.foldl_append
    have hs : overlays d sources f (s ++ rel) = f (s ++ rel) := by
      refine overlays_frame fun hp => ?_
      refine Separate.not_prefix (hseparate s (by simp)) [] rel ?_
      rwa [List.append_nil]
    rw [hlast, overlay_below, hs, ih fun s hs => hseparate s (List.mem_append_left _ hs),
      List.reverse_concat, List.findSome?_cons]
    cases f (s ++ rel) <;> rfl

omit [DecidableEq κ] in
theorem PartwayAll.refl (K : ε → ε → Prop) (d : List κ) (sources : List (List κ))
    (f : List κ → Option ε) : PartwayAll K d sources f f := fun _ => .inl rfl

omit [DecidableEq κ] in
theorem Partway.all (hs : s ∈ sources) (hg : Partway K s d f g) : PartwayAll K d sources f g := by
  intro p
  obtain heq | hpart := hg p
  · exact .inl heq
  · exact .inr ⟨s, hs, hpart⟩

omit [DecidableEq κ] in
theorem PartwayAll.frame (hg : PartwayAll K d sources f g) (hp : ¬ d <+: p) : g p = f p := by
  obtain heq | ⟨s, -, rel, -, -, rfl, -⟩ := hg p
  · exact heq
  · exact absurd (List.prefix_append d rel) hp

omit [DecidableEq κ] in
theorem PartwayAll.source (hg : PartwayAll K d sources f g) (hseparate : Separate s d)
    (rel : List κ) : g (s ++ rel) = f (s ++ rel) := by
  refine hg.frame fun hp => ?_
  exact hseparate.not_prefix [] rel (by rwa [List.append_nil])

omit [DecidableEq κ] in
theorem PartwayAll.trans (hseparate : ∀ s ∈ sources, Separate s d)
    (hg : PartwayAll K d sources f g) (hh : PartwayAll K d sources g h) :
    PartwayAll K d sources f h := by
  intro p
  obtain heq | ⟨s, hs, rel, e, e', rfl, he, he', hK⟩ := hh p
  · rw [heq]
    exact hg p
  · rw [hg.source (hseparate s hs)] at he
    exact .inr ⟨s, hs, rel, e, e', rfl, he, he', hK⟩

/-- **Overlays complete their part.** -/
theorem PartwayAll.overlays_eq (hseparate : ∀ s ∈ sources, Separate s d)
    (hg : PartwayAll K d sources f g) : overlays d sources g = overlays d sources f := by
  funext p
  by_cases hp : d <+: p
  · obtain ⟨rel, rfl⟩ := hp
    rw [overlays_below hseparate, overlays_below hseparate]
    have hsame : (sources.reverse.findSome? fun s => g (s ++ rel)) =
        sources.reverse.findSome? fun s => f (s ++ rel) :=
      findSome?_congr fun s hs => hg.source (hseparate s (List.mem_reverse.mp hs)) rel
    rw [hsame]
    cases hfound : sources.reverse.findSome? fun s => f (s ++ rel) with
    | some e => rfl
    | none =>
      -- no tree has anything there
      obtain heq | ⟨s, hs, rel', e, -, hrel, he, -⟩ := hg (d ++ rel)
      · exact heq
      · rw [List.append_cancel_left_eq] at hrel
        have hnone := List.findSome?_eq_none_iff.mp hfound s (List.mem_reverse.mpr hs)
        rw [hrel, he] at hnone
        cases hnone
  · rw [overlays_frame hp, overlays_frame hp, hg.frame hp]

end Lib
