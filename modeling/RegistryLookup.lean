import RegistryLookup.Breaker.Session
import RegistryLookup.Caller.Session
import RegistryLookup.Config.Writer
import RegistryLookup.Flight.Session
import RegistryLookup.LogFilter
import RegistryLookup.Main
import RegistryLookup.Proofs.Breaker.Cooldown
import RegistryLookup.Proofs.Breaker.Probes
import RegistryLookup.Proofs.Breaker.Tally
import RegistryLookup.Proofs.Cache.Accounts
import RegistryLookup.Proofs.Cache.Ticks
import RegistryLookup.Proofs.Caller.Admission
import RegistryLookup.Proofs.Caller.Closing
import RegistryLookup.Proofs.Caller.Invalidation
import RegistryLookup.Proofs.Caller.Progress
import RegistryLookup.Proofs.Caller.Upstream
import RegistryLookup.Proofs.Client.Entities
import RegistryLookup.Proofs.Client.Parameters
import RegistryLookup.Proofs.Config.Conditions
import RegistryLookup.Proofs.Config.RoundTrip
import RegistryLookup.Proofs.Flight.Attribution
import RegistryLookup.Proofs.Flight.Noninterference
import RegistryLookup.Proofs.Gateway.Forgetting
import RegistryLookup.Proofs.Gateway.RateLimit
import RegistryLookup.Proofs.Http.Excerpt
import RegistryLookup.Proofs.Retry.Rest
import RegistryLookup.Proofs.Wait
