import TerraStack.Proofs.Terraform.Deployment
import TerraStack.Proofs.Terraform.GuardSequence

namespace TerraStack.Terraform.Lifecycle

open Procedure

variable {ε : Type}

/-- The resources of some workspace are destroyed. -/
def Destroys (history : List ((Deployment × ε) × Event)) : Prop :=
  ∃ moment ∈ history, moment.2.action = .run destroyArgs

/-- Whenever resources are destroyed, the current workspace is this one. -/
def DestroysOnly (workspace : String) (history : List ((Deployment × ε) × Event)) : Prop :=
  ∀ moment ∈ history, moment.2.action = .run destroyArgs → moment.1.1.current = workspace

/-- Whenever resources of a workspace in production are destroyed, the phrase has been typed before. -/
def ProductionPhrased (history : List ((Deployment × ε) × Event)) : Prop :=
  ∀ before moment after, history = before ++ moment :: after →
    moment.2.action = .run destroyArgs → isProduction moment.1.1.current = true →
      .asked productionQuestion true ∈ before.map Prod.snd

/-- The workspace whose resources are destroyed when a workspace is requested. Terraform destroys
the current one, and a request selects its workspace unless that is the default one. -/
def destroyedWorkspace (workspace current : String) : String :=
  if workspace = defaultWorkspace then current else workspace

theorem Selected.foldl_currentAfter {workspace : String} {events : List Event}
    (hselected : Selected workspace events) (current : String) :
    events.foldl Event.currentAfter current = destroyedWorkspace workspace current := by
  cases hselected with
  | needless hdefault => exact (if_pos hdefault).symm
  | selected hother hsuccess =>
    rw [List.foldl_cons, List.foldl_nil, selectArgs, Event.currentAfter, if_pos hsuccess]
    exact (if_neg hother).symm

theorem Phrased.foldl_currentAfter {workspace : String} {events : List Event}
    (hphrased : Phrased workspace events) (current : String) :
    events.foldl Event.currentAfter current = current := by
  cases hphrased <;> rfl

/-- When the resources are counted, the current workspace is the one to be destroyed. -/
theorem Counting.foldl_currentAfter {initialized : Bool} {workspace : String} {resources : Nat}
    {opening : List Event} (hcounting : Counting initialized workspace resources opening)
    (current : String) :
    opening.foldl Event.currentAfter current = destroyedWorkspace workspace current := by
  obtain ⟨_, _, _, hselected, _, _⟩ := hcounting
  rw [List.foldl_cons, List.foldl_append]
  exact hselected.foldl_currentAfter current

/-- What does not occur before the last place of a list occurs in the last place only. -/
theorem eq_of_append_cons_eq_concat {α : Type} {before after earlier : List α} {item last : α}
    (heq : before ++ item :: after = earlier ++ [last]) (hitem : item ∉ earlier) :
    before = earlier ∧ item = last ∧ after = [] := by
  rcases List.eq_nil_or_concat after with rfl | ⟨rest, final, rfl⟩
  · obtain ⟨hbefore, hlast⟩ := List.append_inj' heq rfl
    exact ⟨hbefore, List.singleton_inj.mp hlast, rfl⟩
  · have hassoc : (before ++ item :: rest) ++ [final] = earlier ++ [last] := by
      rw [← heq, List.append_assoc, List.cons_append, List.concat_eq_append]
    obtain ⟨hearlier, _⟩ := List.append_inj' hassoc rfl
    exact absurd (hearlier ▸ List.mem_append_right before List.mem_cons_self) hitem

/-- Everything that comes before the destruction of resources. -/
theorem before_of_destroys {directory workspace : String} {initialized : Bool}
    {environment : Environment ε} {state : Deployment × ε}
    {before after : List ((Deployment × ε) × Event)} {moment : (Deployment × ε) × Event}
    (hhistory : (destroyWorkspace directory initialized workspace).history environment.handler state =
      before ++ moment :: after)
    (hmoment : moment.2.action = .run destroyArgs) :
    ∃ resources opening phrase planning, Counting initialized workspace resources opening ∧
      Phrased workspace phrase ∧ before.map Prod.snd = opening ++
        .ran planDestroyArgs (.ok planning) :: .asked (destroyQuestion resources workspace) true ::
          phrase := by
  have hevents : (destroyWorkspace directory initialized workspace).events environment.handler state =
      before.map Prod.snd ++ moment.2 :: after.map Prod.snd := by
    rw [events, hhistory, List.map_append, List.map_cons]
  have hdestruction := destruction_events environment.handler directory initialized workspace state
  rw [hevents] at hdestruction
  obtain ⟨resources, opening, phrase, planning, result, hcounting, _, _, hphrased, heq, _⟩ :=
    hdestruction.destroys_of_mem (List.mem_map.mpr ⟨moment.2, by simp, hmoment⟩)
  refine ⟨resources, opening, phrase, planning, hcounting, hphrased, ?_⟩
  refine (eq_of_append_cons_eq_concat heq (not_mem_of_action ?_)).1
  rw [hmoment]
  exact hcounting.run_destroyArgs_not_mem hphrased planning

/-- Every command by which terraform destroys is the one that destroys resources. -/
theorem eq_destroyArgs_of_mem {directory workspace : String} {initialized : Bool} {events : List Event}
    {outcome : Except Error DestroyOutcome}
    (hdestruction : Destruction directory initialized workspace events outcome) {args : List String}
    (hmem : .run args ∈ events.map Event.action) (hhead : args.head? = some "destroy") :
    args = destroyArgs := by
  obtain ⟨resources, hcount⟩ := hdestruction.exists_count
  have hdone := (hdestruction.actions_isPrefix hcount).subset hmem
  rw [destructionActions_eq, List.mem_append, mem_openingActions, mem_removalActions] at hdone
  simp only [Action.run.injEq, reduceCtorEq, and_false, false_or] at hdone
  rcases hdone with (rfl | ⟨_, rfl⟩ | rfl) | rfl | rfl
  · simp [listWorkspacesArgs] at hhead
  · simp [selectArgs] at hhead
  · simp [listResourcesArgs] at hhead
  · simp [planDestroyArgs] at hhead
  · rfl

/-- Resources are destroyed only in the workspace that the selection left as the current one. -/
theorem current_of_destroys {directory workspace : String} {initialized : Bool}
    {environment : Environment ε} {state : Deployment × ε}
    {before after : List ((Deployment × ε) × Event)} {moment : (Deployment × ε) × Event}
    (hhistory : (destroyWorkspace directory initialized workspace).history environment.handler state =
      before ++ moment :: after)
    (hmoment : moment.2.action = .run destroyArgs) :
    moment.1.1.current = destroyedWorkspace workspace state.1.current := by
  obtain ⟨resources, opening, phrase, planning, hcounting, hphrased, hbefore⟩ :=
    before_of_destroys hhistory hmoment
  rw [environment.current_of_history _ _ hhistory, hbefore, List.foldl_append,
    hcounting.foldl_currentAfter]
  exact hphrased.foldl_currentAfter _

/-- The phrase is typed before resources are destroyed exactly if it is the requested workspace that
is in production. -/
theorem phrased_iff_of_destroys {directory workspace : String} {initialized : Bool}
    {environment : Environment ε} {state : Deployment × ε}
    {before after : List ((Deployment × ε) × Event)} {moment : (Deployment × ε) × Event}
    (hhistory : (destroyWorkspace directory initialized workspace).history environment.handler state =
      before ++ moment :: after)
    (hmoment : moment.2.action = .run destroyArgs) :
    .asked productionQuestion true ∈ before.map Prod.snd ↔ isProduction workspace = true := by
  obtain ⟨resources, opening, phrase, planning, hcounting, hphrased, hbefore⟩ :=
    before_of_destroys hhistory hmoment
  have hopening : .asked productionQuestion true ∉ opening := by
    refine not_mem_of_action ?_
    rw [hcounting.actions]
    exact ask_not_mem_openingActions workspace productionQuestion
  have hquestion : productionQuestion ≠ destroyQuestion resources workspace := Question.noConfusion
  cases hphrased with
  | needless hproduction => simp [hbefore, hopening, hquestion, hproduction]
  | given hproduction => simp [hbefore, hproduction]

variable (environment : Environment ε) (directory : String) (initialized : Bool) (workspace : String)
  (state : Deployment × ε)

/-- Terraform destroys the workspace that is the current one by then, and no other. -/
theorem destroysOnly_destroyedWorkspace :
    DestroysOnly (destroyedWorkspace workspace state.1.current)
      ((destroyWorkspace directory initialized workspace).history environment.handler state) := by
  intro moment hmem hmoment
  obtain ⟨before, after, hhistory⟩ := List.append_of_mem hmem
  exact current_of_destroys hhistory hmoment

/-- What is destroyed is the requested workspace, unless `default` is requested, which is never
selected. -/
theorem destroysOnly_iff :
    DestroysOnly workspace
        ((destroyWorkspace directory initialized workspace).history environment.handler state) ↔
      (workspace = defaultWorkspace → state.1.current ≠ defaultWorkspace →
        ¬ Destroys
          ((destroyWorkspace directory initialized workspace).history environment.handler state)) := by
  have hactual := destroysOnly_destroyedWorkspace environment directory initialized workspace state
  constructor
  · rintro honly rfl hcurrent ⟨moment, hmem, hmoment⟩
    have hdestroyed := hactual moment hmem hmoment
    rw [destroyedWorkspace, if_pos rfl] at hdestroyed
    exact hcurrent (hdestroyed.symm.trans (honly moment hmem hmoment))
  · intro hguard moment hmem hmoment
    rw [hactual moment hmem hmoment, destroyedWorkspace]
    split
    · next hdefault =>
      by_cases hcurrent : state.1.current = defaultWorkspace
      · rw [hcurrent, hdefault]
      · exact absurd ⟨moment, hmem, hmoment⟩ (hguard hdefault hcurrent)
    · rfl

/-- The phrase is asked for by the name that is requested, so a current workspace in production goes
without it where `default` is requested. -/
theorem productionPhrased_iff :
    ProductionPhrased
        ((destroyWorkspace directory initialized workspace).history environment.handler state) ↔
      (workspace = defaultWorkspace → isProduction state.1.current = true →
        ¬ Destroys
          ((destroyWorkspace directory initialized workspace).history environment.handler state)) := by
  constructor
  · rintro hproduction rfl hcurrent ⟨moment, hmem, hmoment⟩
    obtain ⟨before, after, hhistory⟩ := List.append_of_mem hmem
    have hdestroyed := current_of_destroys hhistory hmoment
    rw [destroyedWorkspace, if_pos rfl] at hdestroyed
    have hphrase := hproduction before moment after hhistory hmoment (hdestroyed ▸ hcurrent)
    have hdefault := (phrased_iff_of_destroys hhistory hmoment).mp hphrase
    exact absurd hdefault (by decide)
  · intro hguard before moment after hhistory hmoment hcurrent
    rw [phrased_iff_of_destroys hhistory hmoment]
    rw [current_of_destroys hhistory hmoment, destroyedWorkspace] at hcurrent
    split at hcurrent
    · next hdefault =>
      refine absurd ⟨moment, ?_, hmoment⟩ (hguard hdefault hcurrent)
      rw [hhistory]
      exact List.mem_append_right before List.mem_cons_self
    · exact hcurrent

/-- The only resources that a destruction takes away are those of one workspace. -/
theorem destroys_of_perform_resources_ne {name : String}
    (hchanged : ((destroyWorkspace directory initialized workspace).perform environment.handler
      state).2.1.resources name ≠ state.1.resources name) :
    name = destroyedWorkspace workspace state.1.current ∧
      Destroys
        ((destroyWorkspace directory initialized workspace).history environment.handler state) := by
  obtain ⟨moment, hmem, hname, args, hargs, hhead⟩ :=
    environment.destroys_of_resources_ne _ state hchanged
  have hdestruction := destruction_events environment.handler directory initialized workspace state
  have hdone : .run args ∈ ((destroyWorkspace directory initialized workspace).events
      environment.handler state).map Event.action :=
    hargs ▸ List.mem_map_of_mem (List.mem_map_of_mem hmem)
  obtain rfl := eq_destroyArgs_of_mem hdestruction hdone hhead
  refine ⟨?_, moment, hmem, hargs⟩
  rw [← hname]
  exact destroysOnly_destroyedWorkspace environment directory initialized workspace state moment hmem
    hargs

/-- A destruction destroys nothing but the requested workspace exactly if it does not destroy while
`default` is requested and another workspace is the current one. The phrase for production is
skipped exactly if that other workspace is one in production. -/
theorem destroyWorkspace_destroysOnly_iff :
    let history :=
      (destroyWorkspace directory initialized workspace).history environment.handler state
    let final := ((destroyWorkspace directory initialized workspace).perform environment.handler state).2
    DestroysOnly (destroyedWorkspace workspace state.1.current) history ∧
    (DestroysOnly workspace history ↔
      (workspace = defaultWorkspace → state.1.current ≠ defaultWorkspace → ¬ Destroys history)) ∧
    (ProductionPhrased history ↔
      (workspace = defaultWorkspace → isProduction state.1.current = true → ¬ Destroys history)) ∧
    ∀ name, final.1.resources name ≠ state.1.resources name →
      name = destroyedWorkspace workspace state.1.current ∧ Destroys history :=
  ⟨destroysOnly_destroyedWorkspace environment directory initialized workspace state,
    destroysOnly_iff environment directory initialized workspace state,
    productionPhrased_iff environment directory initialized workspace state,
    fun _ => destroys_of_perform_resources_ne environment directory initialized workspace state⟩

/-- No command fails, and the operator agrees to everything but types no phrase. -/
def undisturbed : Environment Unit where
  fault _ _ := (none, ())
  answer
    | .yesNo _, _ => (true, ())
    | .phrase _ _, _ => (false, ())

/-- A workspace in production that is the current one, beside an empty default workspace. -/
def liveProduction : Deployment where
  workspaces := ["default", "production"]
  current := "production"
  resources name := if name = "production" then ["aws_db_instance.main"] else []
  current_mem := by decide

/-- The request for `default` destroys what is in production, and no phrase is typed. -/
theorem default_destroys_liveProduction :
    let history := (destroyWorkspace "generated" true "default").history undisturbed.handler
      (liveProduction, ())
    let final := ((destroyWorkspace "generated" true "default").perform undisturbed.handler
      (liveProduction, ())).2
    ¬ DestroysOnly "default" history ∧ ¬ ProductionPhrased history ∧
      liveProduction.resources "production" = ["aws_db_instance.main"] ∧
      final.1.resources "production" = [] := by
  intro history final
  let moment : (Deployment × Unit) × Event :=
    ((liveProduction, ()), .ran destroyArgs (.ok (liveProduction.execute destroyArgs).1))
  have hsplit : history = history.take 4 ++ [moment] := rfl
  have hmoment : moment.2.action = .run destroyArgs := rfl
  refine ⟨?_, ?_, rfl, rfl⟩
  · intro honly
    have hcurrent : "production" = "default" :=
      honly moment (hsplit ▸ List.mem_append_right _ List.mem_cons_self) hmoment
    exact absurd hcurrent (by decide)
  · intro hphrased
    have hphrase := hphrased (history.take 4) moment [] hsplit hmoment (by decide)
    exact not_mem_of_action (by decide) hphrase

end TerraStack.Terraform.Lifecycle
