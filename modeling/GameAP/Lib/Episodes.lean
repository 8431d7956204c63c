import GameAP.Lib.Run

/-!
# Logs made of episodes

What a shared log says about one key is `Episodes whole part` if it is a sequence of `whole`
episodes with, behind them, a `part` of one. A step makes the last episode longer
(`Episodes.extend`) or ends it (`Episodes.close`). A system whose steps do so for each key has such
a log in every run (`Run.episodes`).
-/

namespace Lib

variable {ε σ ι κ : Type*} {whole part part' : List ε → Prop} {l new : List ε}

def Episodes (whole part : List ε → Prop) (l : List ε) : Prop :=
  ∃ (done : List (List ε)) (now : List ε), l = done.flatten ++ now ∧ (∀ d ∈ done, whole d) ∧ part now

theorem Episodes.nil (h : part []) : Episodes whole part [] :=
  ⟨[], [], rfl, fun _ hd => absurd hd List.not_mem_nil, h⟩

theorem Episodes.extend (h : Episodes whole part l) (hpart : ∀ now, part now → part' (now ++ new)) :
    Episodes whole part' (l ++ new) := by
  obtain ⟨done, now, rfl, hdone, hnow⟩ := h
  exact ⟨done, now ++ new, List.append_assoc _ _ _, hdone, hpart now hnow⟩

theorem Episodes.close (h : Episodes whole part l) (hwhole : ∀ now, part now → whole (now ++ new))
    (hpart : part' []) : Episodes whole part' (l ++ new) := by
  obtain ⟨done, now, rfl, hdone, hnow⟩ := h
  refine ⟨done ++ [now ++ new], [], by simp, fun d hd => ?_, hpart⟩
  rcases List.mem_append.mp hd with hd | hd
  · exact hdone d hd
  · exact List.mem_singleton.mp hd ▸ hwhole now hnow

/-- What a step does to the episodes of a key. -/
inductive Episodes.Step (whole part part' : List ε → Prop) (new : List ε) : Prop where
  | goesOn : (∀ now, part now → part' (now ++ new)) → Step whole part part' new
  | ends : (∀ now, part now → whole (now ++ new)) → part' [] → Step whole part part' new

theorem Episodes.step (h : Episodes whole part l) (hs : Episodes.Step whole part part' new) :
    Episodes whole part' (l ++ new) := by
  cases hs with
  | goesOn hpart => exact h.extend hpart
  | ends hwhole hpart => exact h.close hwhole hpart

/-- **Interleaved episodes.** In a log that the keys share, each key has its own episodes. -/
theorem Run.episodes {R : σ → ι → σ → Prop} {ok : σ → ι → Prop} {I : σ → Prop} {s t : σ}
    (log : σ → List ε) (about : κ → ε → Bool) (whole : κ → List ε → Prop)
    (part : σ → κ → List ε → Prop) (h : Run R ok s t) (hI : I s)
    (h0 : ∀ k, Episodes (whole k) (part s k) ((log s).filter (about k)))
    (hstep : ∀ s i t, I s → ok s i → R s i t → I t ∧ ∃ new, log t = log s ++ new ∧
      ∀ k, Episodes.Step (whole k) (part s k) (part t k) (new.filter (about k))) :
    ∀ k, Episodes (whole k) (part t k) ((log t).filter (about k)) := by
  refine (h.invariant (I := fun s => I s ∧
    ∀ k, Episodes (whole k) (part s k) ((log s).filter (about k))) ⟨hI, h0⟩ ?_).2
  rintro s i t ⟨hs, hep⟩ hok hr
  obtain ⟨ht, new, hlog, hnew⟩ := hstep s i t hs hok hr
  refine ⟨ht, fun k => ?_⟩
  rw [hlog, List.filter_append]
  exact (hep k).step (hnew k)

end Lib
