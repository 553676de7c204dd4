import ModelBroker.Lib.Dict
import ModelBroker.Lib.Runs
import ModelBroker.Lib.Simulation
import ModelBroker.Lib.Turns
import ModelBroker.Lib.Table
import ModelBroker.Lib.Keys
import ModelBroker.Lib.Dialogue
import ModelBroker.Lib.Locks
import ModelBroker.Lib.Packing
import ModelBroker.Python.Builtins
import ModelBroker.Python.Text
import ModelBroker.Python.Double
import ModelBroker.Python.Json
import ModelBroker.Python.Path
import ModelBroker.Python.Sha256
import ModelBroker.Catalogue.Variant
import ModelBroker.Catalogue.Services
import ModelBroker.Catalogue.Devices
import ModelBroker.Catalogue.Llama
import ModelBroker.Scheduler.Records
import ModelBroker.Scheduler.Survey
import ModelBroker.Scheduler.State
import ModelBroker.Scheduler.Cases
import ModelBroker.Scheduler.Order
import ModelBroker.Scheduler.Frame
import ModelBroker.Scheduler.Refs
import ModelBroker.Scheduler.Owners
import ModelBroker.Scheduler.Deciding
import ModelBroker.Scheduler.Conditions
import ModelBroker.Scheduler.Fitness
import ModelBroker.Scheduler.Keeping
import ModelBroker.Scheduler.Protection
import ModelBroker.Scheduler.Counts
import ModelBroker.Scheduler.Tracking
import ModelBroker.Scheduler.Actors
import ModelBroker.Scheduler.Admission
import ModelBroker.Scheduler.Observations
import ModelBroker.Scheduler.Usage
import ModelBroker.Scheduler.Finishing
import ModelBroker.Scheduler.Verdict
import ModelBroker.Scheduler.Windows
import ModelBroker.Scheduler.Deadline
import ModelBroker.Scheduler.Swap
import ModelBroker.Scheduler.Sharing
import ModelBroker.Scheduler.Serving
import ModelBroker.Scheduler.Gentle
import ModelBroker.Scheduler.Driving
import ModelBroker.Scheduler.Draining
import ModelBroker.Scheduler.Asking
import ModelBroker.Scheduler.Journal
import ModelBroker.Scheduler.Tracing
import ModelBroker.Servers.World
import ModelBroker.Servers.Exclusive
import ModelBroker.Servers.Gone
import ModelBroker.Servers.Reinspection
import ModelBroker.Servers.Answers
import ModelBroker.Control.Client
import ModelBroker.Control.Helper
import ModelBroker.Control.Requests
import ModelBroker.Control.Agreement
import ModelBroker.Control.Confinement
import ModelBroker.Control.Threads
import ModelBroker.Servers.Managed
import ModelBroker.Servers.Identity
import ModelBroker.Catalogue.Largest
import ModelBroker.Servers.OneModel
import ModelBroker.Servers.Llama
import ModelBroker.Servers.Occupying
import ModelBroker.Servers.Idle
import ModelBroker.Auth.Keys
import ModelBroker.Proxy.Chat
import ModelBroker.Proxy.Release
import ModelBroker.Broker.Handlers
import ModelBroker.Broker.System
import ModelBroker.Broker.Connections
import ModelBroker.Broker.Mediation
import ModelBroker.Broker.Relaying
import ModelBroker.Broker.Accounting
import ModelBroker.Broker.Draining
import ModelBroker.Broker.Unseen
