import Commerce.Saga.PivotLaw
import Commerce.Saga.LateRun
import Commerce.Orders.History
import Commerce.Inventory.Exactness
import Commerce.Inventory.Locking
import Commerce.Inventory.Adjusting
import Commerce.Identity.Ceiling
import Commerce.Identity.RoutableIds
import Commerce.Checkout.Charge
import Commerce.Users.Families
import Commerce.Placing.OneOrder
import Commerce.Placing.Reaper
import Commerce.Inventory.Strategies
import Commerce.Payments.IntentKeys
import Commerce.Payments.Rotation
import Commerce.Messaging.ExactlyOnce
import Commerce.Carts.Limits
import Commerce.Users.Theft
import Commerce.Users.CleanPass
import Commerce.Media.Assets
import Commerce.Media.Sweep
import Commerce.Catalog.Freshness
import Commerce.Search.OneIndex
import Commerce.Checkout.Payable
import Commerce.Identity.Emissions
import Commerce.Orders.RequestHash
import Commerce.Messaging.Relay
import Commerce.Messaging.Replaying
import Commerce.Orders.InvariantScan
import Commerce.Saga.Outstanding
import Commerce.Trying.Agreement
import Commerce.Composition.Commands
import Commerce.Composition.Authorizations
import Commerce.Cancelling.Answers
import Commerce.Identity.Settled
import Commerce.Catalog.Listing
import Commerce.Search.Convergence
import Commerce.Users.Lifetimes
