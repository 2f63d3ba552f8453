import Mcxn947.EdmaFabric

/-!
# The requests a bottom half takes

`bhVisits` lists every state in which the service loop looks at a channel; it takes a
request where the channel is eligible, and bus accesses may change that between two visits.
-/

namespace Mcxn947.Edma

open EventRuns List

variable {μ : Type} (bus : Bus μ)

def passVisits : List ChanIdx → Engine μ × Bool → List (Engine μ × ChanIdx)
  | [], _ => []
  | n :: rest, acc => (acc.1, n) :: passVisits rest (serviceNext bus acc n)

def loopVisits : ℕ → Engine μ → List (Engine μ × ChanIdx)
  | 0, _ => []
  | passes + 1, x =>
    passVisits bus (List.finRange 16) (x, false) ++
      if (servicePass bus x).2 then loopVisits passes (servicePass bus x).1
      else []

def bhVisits (x : Engine μ) : List (Engine μ × ChanIdx) :=
  if x.st.bhScheduled then
    loopVisits bus maxLoops { x with st := { x.st with bhScheduled := false } }
  else []

def takes (visits : List (Engine μ × ChanIdx)) : List (Engine μ × ChanIdx) :=
  visits.filter fun v => v.1.st.eligible v.2

def bhTakes (x : Engine μ) : List (Engine μ × ChanIdx) := takes (bhVisits bus x)

def taken (take : Engine μ × ChanIdx) : ChanIdx × ReqSrc :=
  (take.2, muxSrc (take.1.st.ch take.2).mux)

variable {bus}

lemma requests_append (l l' : List BusMark) : requests (l ++ l') = requests l ++ requests l' :=
  filterMap_append

lemma takes_append (l l' : List (Engine μ × ChanIdx)) : takes (l ++ l') = takes l ++ takes l' :=
  filter_append l l'

variable {v : Engine μ × ChanIdx} {x : Engine μ} {R : Engine μ → Engine μ → Prop}

lemma mem_bhTakes : v ∈ bhTakes bus x ↔ v ∈ bhVisits bus x ∧ v.1.st.eligible v.2 := mem_filter

lemma scheduled_of_mem_bhVisits (hv : v ∈ bhVisits bus x) : x.st.bhScheduled := by
  by_contra hidle
  rw [bhVisits, if_neg hidle] at hv
  cases hv

section

variable (hrefl : ∀ x, R x x) (htrans : ∀ x y z, R x y → R y z → R x z)
  (hvisit : ∀ x n, R x (serviceChannel bus x n).1)
include hrefl htrans hvisit

lemma passVisits_between (channels : List ChanIdx) (acc : Engine μ × Bool) :
    R acc.1 (channels.foldl (serviceNext bus) acc).1 ∧
      ∀ v ∈ passVisits bus channels acc, R acc.1 v.1 ∧ R (serviceChannel bus v.1 v.2).1
      (channels.foldl (serviceNext bus) acc).1 := by
  induction channels generalizing acc with
  | nil => exact ⟨hrefl _, by simp [passVisits]⟩
  | cons n rest ih =>
    obtain ⟨hrest, hlater⟩ := ih (serviceNext bus acc n)
    have hhere : R acc.1 (serviceNext bus acc n).1 := hvisit acc.1 n
    refine ⟨htrans _ _ _ hhere hrest, ?_⟩
    intro v hv
    rw [passVisits, mem_cons] at hv
    cases hv with
    | inl hfirst =>
      subst hfirst
      exact ⟨hrefl _, hrest⟩
    | inr hv =>
      obtain ⟨hbefore, hafter⟩ := hlater v hv
      exact ⟨htrans _ _ _ hhere hbefore, hafter⟩

lemma loopVisits_between (passes : ℕ) (x : Engine μ) :
    R x (serviceLoop bus passes x) ∧ ∀ v ∈ loopVisits bus passes x, R x v.1 ∧
      R (serviceChannel bus v.1 v.2).1 (serviceLoop bus passes x) := by
  induction passes generalizing x with
  | zero => exact ⟨hrefl x, by simp [loopVisits]⟩
  | succ passes ih =>
    obtain ⟨hpass, hvisits⟩ := passVisits_between hrefl htrans hvisit (List.finRange 16) (x, false)
    obtain ⟨hrest, hlater⟩ := ih (servicePass bus x).1
    rw [serviceLoop, loopVisits]
    cases hprogress : (servicePass bus x).2 with
    | false => exact ⟨hpass, hvisits⟩
    | true =>
      simp only [if_true, mem_append]
      refine ⟨htrans _ _ _ hpass hrest, ?_⟩
      rintro v (hv | hv)
      · obtain ⟨hbefore, hafter⟩ := hvisits v hv
        exact ⟨hbefore, htrans _ _ _ hafter hrest⟩
      · obtain ⟨hbefore, hafter⟩ := hlater v hv
        exact ⟨htrans _ _ _ hpass hbefore, hafter⟩

end

lemma ServiceInvariant.bhTakes {P : Engine μ → Prop} (h : ServiceInvariant bus P) (hx : P x)
    (htake : v ∈ bhTakes bus x) : P v.1 ∧ v.1.st.eligible v.2 := by
  obtain ⟨hvisit, helig⟩ := mem_bhTakes.mp htake
  rw [bhVisits, if_pos (scheduled_of_mem_bhVisits hvisit)] at hvisit
  have hloop := fun y => loopVisits_between (R := fun x y => P x → P y) (fun _ => id)
    (fun _ _ _ hxy hyz hx => hyz (hxy hx)) (fun _ n hx => h.serviceChannel hx n) maxLoops y
  exact ⟨((hloop _).2 v hvisit).1 (h.store ⟨rfl, rfl, rfl⟩ hx), helig⟩

section Trace

variable (hbus : ∀ r, BusInvariant bus fun x : Engine μ => requests x.trace = r)

include hbus

variable (x : Engine μ)

lemma serviceChannel_requests (n : ChanIdx) :
    requests (serviceChannel bus x n).1.trace = requests x.trace ++
      (takes [(x, n)]).map taken := by
  simp only [serviceChannel, takes, filter_cons, filter_nil]
  split
  · have hmark : requests ((x.mark (.request n (muxSrc (x.st.ch n).mux))).modifyCh n
        Chan.clearDone).trace = requests x.trace ++ [taken (x, n)] :=
      requests_append _ _
    have hloop := (hbus _).moves (edmaMinorLoop_moves _ n) hmark
    dsimp only
    split <;> exact hloop
  · simp

lemma foldl_serviceNext_requests (channels : List ChanIdx) (acc : Engine μ × Bool) :
    requests (channels.foldl (serviceNext bus) acc).1.trace =
      requests acc.1.trace ++ (takes (passVisits bus channels acc)).map taken := by
  induction channels generalizing acc with
  | nil => simp [passVisits, takes]
  | cons n rest ih =>
    have hnext : requests (serviceNext bus acc n).1.trace = _ :=
      serviceChannel_requests hbus acc.1 n
    have hvisits : passVisits bus (n :: rest) acc = [(acc.1, n)] ++ _ := rfl
    rw [foldl_cons, ih, hnext, hvisits, takes_append, map_append, List.append_assoc]

lemma serviceLoop_requests (passes : ℕ) (x : Engine μ) : requests (serviceLoop bus passes x).trace =
      requests x.trace ++ (takes (loopVisits bus passes x)).map taken := by
  induction passes generalizing x with
  | zero => simp [serviceLoop, loopVisits, takes]
  | succ passes ih =>
    have hpass : requests (servicePass bus x).1.trace = _ :=
      foldl_serviceNext_requests hbus (List.finRange 16) (x, false)
    rw [serviceLoop, loopVisits]
    split
    · rw [ih, hpass, takes_append, map_append, List.append_assoc]
    · rw [hpass, append_nil]

lemma runBh_requests : requests (runBh bus x).trace =
      requests x.trace ++ (bhTakes bus x).map taken := by
  unfold runBh bhTakes bhVisits
  split
  · exact serviceLoop_requests hbus maxLoops _
  · simp [takes]

end Trace

end Mcxn947.Edma
