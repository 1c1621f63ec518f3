import ProviderCatalog.Proofs.CommandLine.Verdict
import ProviderCatalog.Proofs.Validation.Fields

/-!
# What counts where the sources say nothing

A command with sources takes the token, the address of the service, the hours between background
syncs and the prefixes of repositories from them. A token and a prefix that the sources do not
set, or set to an empty text, are those of the settings. So is an address that the sources set to an
empty text. But where the sources have no address at all, it is that of the public service, and where
they have no hours, there are 24 of them, whatever the settings say.

## Main definitions

* `document?`: the document that a file with sources is.
* `inSection?`: the value of a key in a section of a document.
* `repositoryItems`: the items of a document that configure repositories.
* `textOf?`, `hoursOf?`: values that are read as texts or as numbers of hours.
* `Jobs.plan`: what a job is given of the sources and the settings.

## Main results

* `Sources.ofDatum_eq_ok`: what the sources say, by their document.
* `Jobs.plan_after`: jobs that follow one another have the same plan.
* `work_settings`: which settings a command goes by.
* `work_ignores_settings`: settings that do not count.
-/

namespace ProviderCatalog

variable {α : Type}

namespace Configuration

/-! ### Documents of sources -/

/-- The value of a key in a section of a document. -/
def inSection? (d : Datum) (name key : Text) : Option Datum := (d.get? name).bind (·.get? key)

/-- The text that a value is read as, if it is one. -/
def textOf? (v : Datum) : Option Text := (Checked.text v).value?

/-- The number of hours that a value is read as, if it is one. -/
def hoursOf? (v : Datum) : Option Int := (Checked.intBetween 1 168 v).value?

/-- The items of a document that configure repositories. -/
def repositoryItems (d : Datum) : List Datum :=
  match d.get? "repositories" with
  | some (.list items) => items
  | _ => []

/-- The document that a file with sources is, if it is one. -/
def document? : FileState → Option Datum
  | .file bs =>
    match TextFile.read bs with
    | .ok t => (Yaml.read t.toStringLossy.toList).toOption
    | .error _ => none
  | _ => none

/-- What sources take from their document: the access and the hours where they are set, or else
fixed values, and repositories with the prefixes of the items that configure them. -/
structure Sources.Denoted (d : Datum) (x : Sources) : Prop where
  token : x.access.token = (inSection? d "github" "token").bind textOf?
  apiUrl : some x.access.apiUrl =
    (inSection? d "github" "api_url").elim (some HostAccess.publicApiUrl) textOf?
  hours : some x.refresh.intervalHours =
    (inSection? d "refresh" "interval_hours").elim (some 24) hoursOf?
  repositories : (repositoryItems d).Forall₂
    (fun item r => r.resourcePrefix = (item.get? "resource_prefix").bind textOf?) x.repositories

variable {d : Datum} {x : Sources}

private theorem access_of_check {a : HostAccess} (h : HostAccess.check d = .valid a) :
    a.token = (d.get? "token").bind textOf? ∧
      some a.apiUrl = (d.get? "api_url").elim (some HostAccess.publicApiUrl) textOf? := by
  obtain ⟨f, apiUrl, hf, hapiUrl, rfl⟩ := Checked.seq_eq_valid (Checked.record_eq_valid h)
  obtain ⟨token, htoken, rfl⟩ := Checked.map_eq_valid hf
  exact ⟨Checked.optional_text_eq_valid htoken, Checked.withDefault_eq_valid hapiUrl⟩

private theorem hours_of_check {r : Refresh} (h : Refresh.check d = .valid r) :
    some r.intervalHours = (d.get? "interval_hours").elim (some 24) hoursOf? := by
  obtain ⟨f, jobs, hf, -, rfl⟩ := Checked.seq_eq_valid (Checked.record_eq_valid h)
  obtain ⟨g, hours, hg, hhours, rfl⟩ := Checked.seq_eq_valid hf
  obtain ⟨enabled, -, rfl⟩ := Checked.map_eq_valid hg
  exact Checked.withDefault_eq_valid hhours

private theorem prefix_of_check {r : RepositorySource} (h : RepositorySource.check d = .valid r) :
    r.resourcePrefix = (d.get? "resource_prefix").bind textOf? := by
  obtain ⟨f, enabled, hf, -, rfl⟩ := Checked.seq_eq_valid (Checked.record_eq_valid h)
  obtain ⟨g, own, hg, hown, rfl⟩ := Checked.seq_eq_valid hf
  obtain ⟨fullName, -, rfl⟩ := Checked.map_eq_valid hg
  exact Checked.optional_text_eq_valid hown

/-- Sources that can be read take their parts from their document. -/
theorem Sources.ofDatum_eq_ok (h : ofDatum d = .ok x) : Denoted d x := by
  have hcheck : check d = .valid x := by
    rw [ofDatum.eq_def] at h
    split at h
    · cases h
    · split at h
      · split at h
        · cases h
        · cases hread : check (.mapping _) with
          | valid y =>
            rw [hread] at h
            exact congrArg _ (Except.ok.inj h)
          | invalid issues =>
            rw [hread] at h
            cases h
      · cases h
  obtain ⟨f, refresh, hf, hrefresh, rfl⟩ := Checked.seq_eq_valid (Checked.record_eq_valid hcheck)
  obtain ⟨g, access, hg, haccess, rfl⟩ := Checked.seq_eq_valid hf
  obtain ⟨repositories, hrepositories, rfl⟩ := Checked.map_eq_valid hg
  have hgithub : access.token = (inSection? d "github" "token").bind textOf? ∧
      some access.apiUrl =
        (inSection? d "github" "api_url").elim (some HostAccess.publicApiUrl) textOf? := by
    rcases Checked.withDefault_cases haccess with ⟨hnone, rfl⟩ | ⟨v, hv, hread⟩
    · rw [inSection?, inSection?, hnone]
      exact ⟨rfl, rfl⟩
    · rw [inSection?, inSection?, hv]
      exact access_of_check hread
  constructor
  case token => exact hgithub.1
  case apiUrl => exact hgithub.2
  case hours =>
    rcases Checked.withDefault_cases hrefresh with ⟨hnone, rfl⟩ | ⟨v, hv, hread⟩
    · rw [inSection?, hnone]
      rfl
    · rw [inSection?, hv]
      exact hours_of_check hread
  case repositories =>
    rcases Checked.withDefault_cases hrepositories with ⟨hnone, rfl⟩ | ⟨v, hv, hread⟩
    · rw [repositoryItems, hnone]
      exact .nil
    · rw [repositoryItems, hv]
      rw [Checked.list.eq_def] at hread
      split at hread
      · exact (Checked.each_eq_valid hread).imp fun _ _ => prefix_of_check
      · cases hread

/-- The environment switches background syncs on or off, and nothing else. -/
theorem Sources.Denoted.switched (h : Denoted d x) (environment : List (Text × Text)) :
    Denoted d (x.switched environment) := by
  rw [Sources.switched]
  split
  · exact ⟨h.token, h.apiUrl, h.hours, h.repositories⟩
  · exact h

private theorem except_mapError_eq_ok {ε ε' : Type} {f : ε → ε'} {e : Except ε α} {a : α} :
    e.mapError f = .ok a ↔ e = .ok a := by
  cases e with
  | error e => constructor <;> rintro ⟨⟩
  | ok b => exact ⟨fun h => congrArg _ (Except.ok.inj h), fun h => congrArg _ (Except.ok.inj h)⟩

/-- Sources that can be loaded take their parts from the document of their file. -/
theorem Sources.load_eq_ok {environment : List (Text × Text)} {path : Text} {found : FileState}
    (h : load environment path found = .ok x) : ∃ d, document? found = some d ∧ Denoted d x := by
  rw [load.eq_def] at h
  split at h
  · cases h
  · cases h
  · rename_i bs
    obtain ⟨y, hy, rfl⟩ := except_map_eq_ok.mp h
    rw [ofBytes] at hy
    obtain ⟨t, ht, hy⟩ := except_bind_eq_ok.mp hy
    obtain ⟨d, hd, hy⟩ := except_bind_eq_ok.mp hy
    refine ⟨d, ?_, (ofDatum_eq_ok hy).switched environment⟩
    rw [document?, except_mapError_eq_ok.mp ht]
    dsimp only
    rw [except_mapError_eq_ok.mp hd]
    rfl

end Configuration

namespace Sync

/-! ### Jobs that follow one another -/

/-- What some more jobs leave behind, each of which has a remote side, a mode and some seconds. -/
def Jobs.after (j : Jobs) (runs : List (Remote × Mode × Binary64)) : Jobs :=
  runs.foldl (fun j r => (j.run r.1 r.2.1 r.2.2).2) j

/-- The plan of a job. -/
def Jobs.plan (j : Jobs) : Plan := .ofSettings j.settings j.client j.repositories

theorem Jobs.plan_run (j : Jobs) (remote : Remote) (mode : Mode) (seconds : Binary64) :
    (j.run remote mode seconds).2.plan = j.plan := rfl

/-- All jobs have one plan. -/
theorem Jobs.plan_after (j : Jobs) (runs : List (Remote × Mode × Binary64)) :
    (j.after runs).plan = j.plan := by
  induction runs generalizing j with
  | nil => rfl
  | cons r runs ih => exact (ih _).trans (j.plan_run r.1 r.2.1 r.2.2)

end Sync

namespace CommandLine

open ProviderCatalog.Configuration
open Sync (Jobs Mode Plan orElse)

/-! ### Commands -/

variable {s : Settings} {o : Options} {environment : List (Text × Text)} {found : Text → FileState}
  {x : Sources} {w : Work}

/-- The sources of a command take their parts from the document of their file. -/
theorem sourcesFor_eq_some {path : Option Text}
    (h : sourcesFor environment found path = .ok (some x)) :
    ∃ d, document? (found (path.getD standardPath)) = some d ∧ Sources.Denoted d x := by
  rw [sourcesFor.eq_def] at h
  split at h
  · obtain ⟨y, hy, hx⟩ := except_map_eq_ok.mp h
    cases hx
    exact Sources.load_eq_ok hy
  · split at h
    · cases h
    · obtain ⟨y, hy, hx⟩ := except_map_eq_ok.mp h
      cases hx
      exact Sources.load_eq_ok hy

/-- A text of the sources if it is not empty, or else the one of the settings. -/
def ownOr (own : Option Text) (other : Text) : Text := (orElse own (some other)).getD []

theorem prefixFor_eq (p : Plan) (r : RepositorySource) :
    p.prefixFor r = ownOr r.resourcePrefix p.resourcePrefix := by
  obtain ⟨fullName, own, enabled⟩ := r
  rcases own with _ | _ | ⟨c, t⟩ <;> rfl

/-- The settings that all jobs of a command with sources go by. -/
theorem work_settings (store : Store) (runs : List (Remote × Mode × Binary64))
    (hsources : sourcesFor environment found o.sources = .ok (some x))
    (hwork : Work.of s o (.ok (some x)) = .ok w) :
    ∃ d, document? (found (o.sources.getD standardPath)) = some d ∧
      let plan := ((w.jobs s store).after runs).plan
      plan.client.token =
        (orElse ((inSection? d "github" "token").bind textOf?) s.token).filter (!·.isEmpty) ∧
      plan.client.base = Text.dropRight (· == .scalar '/')
        ((inSection? d "github" "api_url").elim HostAccess.publicApiUrl fun v =>
          ownOr (textOf? v) s.apiUrl) ∧
      (∀ hours most, w.task = .background hours most →
        some hours = (inSection? d "refresh" "interval_hours").elim (some 24) hoursOf?) ∧
      plan.repositories = x.enabled ∧
      (repositoryItems d).Forall₂ (fun item r => plan.prefixFor r =
        ownOr ((item.get? "resource_prefix").bind textOf?) s.resourcePrefix) x.repositories := by
  obtain ⟨d, hd, hdenoted⟩ := sourcesFor_eq_some hsources
  obtain ⟨hsome, rfl⟩ : ¬x.enabled.isEmpty = true ∧
      (⟨some x.enabled, x.access.token, some x.access.apiUrl, .of s o (some x)⟩ : Work) = w := by
    rw [Work.of] at hwork
    split at hwork
    · cases hwork
    · rename_i hsome
      exact ⟨hsome, Except.ok.inj hwork⟩
  refine ⟨d, hd, ?_⟩
  dsimp only
  rw [Jobs.plan_after]
  refine ⟨?_, ?_, fun hours most htask => ?_, if_neg hsome, ?_⟩
  · rw [← hdenoted.token]
    rfl
  · have hbase : Text.dropRight (· == .scalar '/') (ownOr (some x.access.apiUrl) s.apiUrl) =
        Text.dropRight (· == .scalar '/') ((inSection? d "github" "api_url").elim
          HostAccess.publicApiUrl fun v => ownOr (textOf? v) s.apiUrl) := by
      rw [hdenoted.apiUrl]
      cases inSection? d "github" "api_url" <;> rfl
    exact hbase
  · rw [← hdenoted.hours]
    change Task.of s o (some x) = _ at htask
    rw [Task.of.eq_def] at htask
    split at htask
    · cases htask
      rfl
    · cases htask
  · refine hdenoted.repositories.imp fun item r h => ?_
    rw [prefixFor_eq, h]
    rfl

/-- A file with one repository and a token, but without an address and without hours. -/
def tokenOnly : FileState :=
  .file ("repositories:\n- full_name: a/x\n  resource_prefix: p\ngithub:\n  token: t\n".toList.map
    fun c => UInt8.ofNat c.toNat)

/-- Settings with an address and hours of their own. -/
def ownSettings : Settings :=
  { Settings.standard with token := some "u", apiUrl := "https://host.test", intervalHours := 6 }

/-- The options that ask for background syncs. -/
def scheduled : Options := { Options.none with schedule := true }

/-- The sources in the file. -/
def tokenSources : Sources :=
  ⟨[⟨"a/x", some "p", true⟩], ⟨some "t", HostAccess.publicApiUrl⟩, .standard⟩

set_option maxRecDepth 100000 in
private theorem tokenOnly_sources :
    sourcesFor [] (fun _ => tokenOnly) scheduled.sources = .ok (some tokenSources) := by
  decide +kernel

set_option maxRecDepth 100000 in
private theorem tokenOnly_values :
    (document? tokenOnly).map (fun d => ((inSection? d "github" "token").bind textOf?,
      (inSection? d "github" "api_url").isNone, (inSection? d "refresh" "interval_hours").isNone)) =
        some (some ("t" : Text), true, true) := by
  decide +kernel

private theorem tokenOnly_document : ∃ d, document? tokenOnly = some d ∧
    (inSection? d "github" "token").bind textOf? = some ("t" : Text) ∧
    inSection? d "github" "api_url" = none ∧ inSection? d "refresh" "interval_hours" = none := by
  obtain ⟨d, hd, hvalues⟩ := Option.map_eq_some_iff.mp tokenOnly_values
  obtain ⟨htoken, hrest⟩ := Prod.mk.inj hvalues
  obtain ⟨haddress, hhours⟩ := Prod.mk.inj hrest
  exact ⟨d, hd, htoken, Option.isNone_iff_eq_none.mp haddress, Option.isNone_iff_eq_none.mp hhours⟩

/-- The work that the options ask for with the sources in the file. -/
def tokenWork : Work :=
  ⟨some tokenSources.enabled, some "t", some HostAccess.publicApiUrl, .background 24 1⟩

private theorem tokenWork_eq :
    Work.of ownSettings scheduled (.ok (some tokenSources)) = .ok tokenWork := rfl

/-- The jobs go by the token and the prefix of the file. -/
theorem work_settings_of_tokenOnly :
    sourcesFor [] (fun _ => tokenOnly) scheduled.sources = .ok (some tokenSources) ∧
      Work.of ownSettings scheduled (.ok (some tokenSources)) = .ok tokenWork ∧
      (tokenWork.jobs ownSettings .ready).plan.client.token = some "t" ∧
      ∃ d, document? tokenOnly = some d ∧ (repositoryItems d).Forall₂ (fun item r =>
        (tokenWork.jobs ownSettings .ready).plan.prefixFor r =
          ownOr ((item.get? "resource_prefix").bind textOf?) "azurerm")
        tokenSources.repositories := by
  obtain ⟨d, hd, htoken, -, -, -, hprefixes⟩ :=
    work_settings .ready [] tokenOnly_sources tokenWork_eq
  obtain ⟨d', hd', hvalue, -⟩ := tokenOnly_document
  obtain rfl : d = d' := Option.some.inj (hd.symm.trans hd')
  refine ⟨tokenOnly_sources, tokenWork_eq, ?_, d, hd, hprefixes⟩
  rw [hvalue] at htoken
  exact htoken

/-- The jobs ask the public service and are run every 24 hours, as the file has neither an address
nor hours, although the settings have both. -/
theorem work_ignores_settings :
    sourcesFor [] (fun _ => tokenOnly) scheduled.sources = .ok (some tokenSources) ∧
    Work.of ownSettings scheduled (.ok (some tokenSources)) = .ok tokenWork ∧
    (∃ d, document? tokenOnly = some d ∧ inSection? d "github" "api_url" = none ∧
      inSection? d "refresh" "interval_hours" = none) ∧
    (tokenWork.jobs ownSettings .ready).plan.client.base = "https://api.github.com" ∧
    ownSettings.apiUrl = "https://host.test" ∧
    tokenWork.task = .background 24 1 ∧ ownSettings.intervalHours = 6 ∧
    ¬∀ (s : Settings) (o : Options) (environment : List (Text × Text)) (found : Text → FileState)
        (x : Sources) (w : Work) (d : Datum) (hours most : Int),
      sourcesFor environment found o.sources = .ok (some x) →
        Work.of s o (.ok (some x)) = .ok w →
          document? (found (o.sources.getD standardPath)) = some d →
            w.task = .background hours most →
              hours = ((inSection? d "refresh" "interval_hours").bind hoursOf?).getD
                s.intervalHours := by
  obtain ⟨d, hd, -, haddress, hhours⟩ := tokenOnly_document
  refine ⟨tokenOnly_sources, tokenWork_eq, ⟨d, hd, haddress, hhours⟩, by decide +kernel, rfl, rfl,
    rfl, fun h => ?_⟩
  have hsix := h ownSettings scheduled [] (fun _ => tokenOnly) tokenSources tokenWork d 24 1
    tokenOnly_sources tokenWork_eq hd rfl
  rw [hhours] at hsix
  exact absurd hsix (by decide)

end CommandLine

end ProviderCatalog
