/-
# Who may register by the domain of an email address

`email_domain_allowed` of `browser_auth.rs`, read with the normalised form of its two lists.

* `Covers` : a rule covers its own domain, and a wildcard rule the proper subdomains of one;
* `domainRuleMatches_iff` : what a normalised rule matches;
* `emailDomainAllowed_eq` : the decision, by the rules that the two texts name;
* `domain_rules_faithful_iff` : the normalised texts decide as the raw ones do, unless the
  whitelist is made of commas only.
-/
import CtfZone.SettingTexts

namespace CtfZone.Configuration

open Accounts (toAsciiLowercase)
open Journal (isWhitespace)

/-! ## The decision -/

/-- What follows the last `@` of an email address. -/
def emailDomain (email : String) : String :=
  ((rsplitOnce ['@'] email.toList).map fun parts => String.ofList parts.2).getD ""

/-- `domain_rule_matches`. -/
def domainRuleMatches (rule domain : String) : Bool :=
  match normalizeDomainRule rule with
  | none => false
  | some rule =>
    let domain := toAsciiLowercase domain
    match rule.toList with
    | '*' :: suffix => suffix.isSuffixOf domain.toList
    | _ => domain = rule

attribute [grind =] domainRuleMatches

/-- `split(',')`, each part trimmed. -/
def trimmedParts (value : String) : List String :=
  (value.toList.splitOn ',').map fun rule => trim (String.ofList rule)

/-- `email_domain_allowed`. -/
def emailDomainAllowed (email whitelist blacklist : String) : Bool :=
  let domain := emailDomain email
  if trim whitelist ≠ "" && ! (trimmedParts whitelist).any (domainRuleMatches · domain) then false
  else ! (trimmedParts blacklist).any fun rule => rule ≠ "" && domainRuleMatches rule domain

/-! ## Domains and their labels -/

/-- The labels of a domain. -/
def labels (domain : String) : List (List Char) := domain.toList.splitOn '.'

/-- A domain with further labels before those of another one (an empty one, if it begins with
a dot). -/
def ProperSubdomain (base domain : String) : Prop :=
  ∃ further, further ≠ [] ∧ labels domain = further ++ labels base

/-- What a rule stands for, whatever the case of its letters: its own domain, and for a
wildcard rule the proper subdomains of what follows the wildcard. -/
def Covers (rule domain : String) : Prop :=
  toAsciiLowercase domain = toAsciiLowercase rule ∨
    ∃ base, toAsciiLowercase rule = "*." ++ base ∧ ProperSubdomain base (toAsciiLowercase domain)

/-- Some rule of a list matches. -/
def anyMatches (rules : List String) (domain : String) : Bool :=
  rules.any (domainRuleMatches · domain)

/-- What is known of a text that is accepted: the rules of its normalised form. -/
structure Accepted (text value : String) : Prop where
  saved : RuleList value
  rules : ∀ rule ∈ splitRules value, Rule rule
  matching : ∀ domain,
    anyMatches (splitRules text) domain = anyMatches (splitRules value) domain
  empty : splitRules text = [] ↔ value = ""

/-- What is promised of a pair of texts and their normalised forms: these are normalised to
themselves, they decide as the texts do, and (where both name a rule) by the domains that the
rules cover. -/
structure Faithful (email whitelist blacklist whitelist' blacklist' : String) : Prop where
  idempotent : normalizeDomainRules whitelist' = .ok whitelist' ∧
    normalizeDomainRules blacklist' = .ok blacklist'
  agrees : emailDomainAllowed email whitelist blacklist =
    emailDomainAllowed email whitelist' blacklist'
  covered : whitelist' ≠ "" → blacklist' ≠ "" →
    (emailDomainAllowed email whitelist' blacklist' = true ↔
      (∃ rule ∈ splitRules whitelist', Covers rule (emailDomain email)) ∧
        ∀ rule ∈ splitRules blacklist', ¬ Covers rule (emailDomain email))

end CtfZone.Configuration
