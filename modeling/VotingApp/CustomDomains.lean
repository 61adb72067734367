import VotingApp.World

/-!
custom_domain_repo.go. A Redis set caches the domain column of the table once the
warmed marker is there. The pipeline of WarmCache sends its commands one by one.
-/
namespace CustomDomains
open GoText GoTime Tables EffectProgram VotingWorld

def customDomainsRedisKey : Str := "custom_email_domains".toList
def customDomainsWarmedRedisKey : Str := "custom_email_domains:warmed".toList

def errDomainAlreadyExists : GoErr := ⟨"domain already exists".toList, [.domainAlreadyExists]⟩
def errDomainNotFound : GoErr := ⟨"domain not found".toList, [.domainNotFound]⟩

def getAll : Act (Except GoErr (List CustomDomain)) := sql .allDomains

def insert (domain : Str) : Act (Option GoErr) := do
  match ← sql (.insertDomain domain) with
  | .error err => return some (if err.is (.mysql 1062) then errDomainAlreadyExists else err)
  | .ok () =>
    let _ ← redis (.sadd customDomainsRedisKey [domain])
    return none

def delete (id : Int) : Act (Option GoErr) := do
  match ← sql (.domainById id) with
  | .error err => return some (if err.is .noRows then errDomainNotFound else err)
  | .ok domain =>
    match ← sql (.deleteDomain id) with
    | .error err => return some err
    | .ok rows =>
      if rows = 0 then return some errDomainNotFound
      else
        let _ ← redis (.srem customDomainsRedisKey domain)
        return none

def isDomainAllowedFromDB (domain : Str) : Act (Except GoErr Bool) := do
  match ← sql (.countDomain domain) with
  | .error err => return .error err
  | .ok count => return .ok (0 < count)

/- The answer of the table, and a warming of the cache in the background. -/
def fallBackToDB (domain : Str) : Act (Except GoErr Bool) := do
  match ← isDomainAllowedFromDB domain with
  | .error err => return .error err
  | .ok allowed =>
    issue Cmd.goWarmCache
    return .ok allowed

def isDomainAllowed (lowerRune : Char → Char) (domain : Str) : Act (Except GoErr Bool) := do
  let domain := domain.map lowerRune
  match ← redis (.exists customDomainsWarmedRedisKey) with
  | .error _ => fallBackToDB domain
  | .ok warmed =>
    if warmed = 0 then fallBackToDB domain
    else redis (.sismember customDomainsRedisKey domain)

/- go-redis runs every command of the pipeline and returns the first error. -/
def firstError {α : Type} (r : Except GoErr α) (rest : Option GoErr) : Option GoErr :=
  match r with
  | .error err => some err
  | .ok _ => rest

def warmCache : Act (Option GoErr) := do
  match ← getAll with
  | .error err => return some err
  | .ok domains =>
    let deleted ← redis (.del [customDomainsRedisKey])
    if domains = [] then
      let marked ← redis (.set customDomainsWarmedRedisKey "1".toList 0)
      return firstError deleted (firstError marked none)
    else
      let added ← redis (.sadd customDomainsRedisKey (domains.map CustomDomain.domain))
      let marked ← redis (.set customDomainsWarmedRedisKey "1".toList 0)
      return firstError deleted (firstError added (firstError marked none))

end CustomDomains
